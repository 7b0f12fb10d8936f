import Vanguard.Library.Books
import Vanguard.Proofs.Accounts

/-!
# `Vanguard.Proofs.Conservation`: the balances agree with the ledger

`Database.books` reads the tables `virtual_accounts` and `ledger_entries` as the account
books of the library. `Commit.books_step` is the refinement: a committed batch is a step
of the books or leaves them as they are. `balanced_of_run` follows for every committed
moment of every run, and `ledger_conservation` says it in terms of the tables.

The key of an advance has the invoice as the request of `createVan` spells it, which need not be
the stored `invoice_id` (`advance_of_upper_case`).
-/

set_option autoImplicit false

namespace Vanguard

open ReadCommitted

/-! ### The tables as account books -/

/-- The side of an entry. -/
def EntryType.side : EntryType → Books.Side
  | debit => .debit
  | credit => .credit

/-- A ledger row as an entry of the books. -/
def LedgerEntry.book (e : LedgerEntry) : Books.Entry Uuid String :=
  ⟨e.virtualAccountId, e.idempotencyKey, e.entryType.side, e.amountCents⟩

/-- A virtual account as an account of the books. Its advance has a key with some spelling of
the invoice. -/
def VirtualAccount.book (v : VirtualAccount) : Books.Account String :=
  ⟨{key | ∃ text : UuidText, text.uuid = v.invoiceId ∧ key = advanceKey text},
    v.expectedAmountCents, v.receivedAmountCents, v.status == .settled⟩

/-- The account books of the database. -/
def Database.books (db : Database) : Books.State Uuid String :=
  ⟨fun id => (db.van id).map VirtualAccount.book, db.ledgerEntries.map LedgerEntry.book⟩

namespace Database

/-- The book of a stored account. -/
theorem account_books_of_van {db : Database} {id : Uuid} {v : VirtualAccount}
    (h : db.van id = some v) : db.books.account id = some v.book :=
  congrArg (Option.map VirtualAccount.book) h

/-- A new version of an account together with an entry of it is a posting. -/
theorem books_post (db : Database) {v : VirtualAccount} {e : LedgerEntry}
    (h : e.virtualAccountId = v.id) :
    ((db.write (.ledgerEntry e)).write (.virtualAccount v)).books =
      db.books.post e.book v.book := by
  have hacc : (fun id => (((db.write (.ledgerEntry e)).write (.virtualAccount v)).van id).map
      VirtualAccount.book) = Function.update db.books.account e.book.account (some v.book) := by
    funext id
    by_cases hid : id = v.id
    · simp [hid, LedgerEntry.book, h]
    · simp [Function.update_of_ne, LedgerEntry.book, h, hid, Ne.symm hid, books]
  simp only [books, Books.State.post] at hacc ⊢
  rw [hacc]
  simp

/-- The books depend on the accounts and the ledger only. -/
theorem books_congr {db db' : Database} (hvan : ∀ id, db.van id = db'.van id)
    (hledger : db.ledgerEntries = db'.ledgerEntries) : db.books = db'.books := by
  simp only [books, hvan, hledger]

/-- The entries of an account on one side are its ledger rows of one type. -/
theorem side_entryType (db : Database) (id : Uuid) (type : EntryType) :
    db.books.side id type.side = (db.ledgerEntries.filter fun e =>
      e.virtualAccountId == id && e.entryType == type).map LedgerEntry.book := by
  simp only [Books.State.side, books, List.filter_map]
  congr 1
  refine List.filter_congr fun e _ => ?_
  have hside : decide (e.entryType.side = type.side) = (e.entryType == type) := by
    cases e.entryType <;> cases type <;> rfl
  show (decide (e.virtualAccountId = id) && decide (e.entryType.side = type.side)) = _
  rw [hside]
  rfl

/-- The credit side of the books is the credits of the ledger. -/
theorem side_credit (db : Database) (id : Uuid) :
    db.books.side id .credit = (db.creditsOf id).map LedgerEntry.book :=
  db.side_entryType id .credit

/-- The debit side of the books is the debits of the ledger. -/
theorem side_debit (db : Database) (id : Uuid) :
    db.books.side id .debit = (db.debitsOf id).map LedgerEntry.book :=
  db.side_entryType id .debit

/-- A key that no entry has is fresh in the books. -/
theorem fresh_books {db : Database} {key : String}
    (h : ∀ e ∈ db.ledgerEntries, e.idempotencyKey ≠ key) : db.books.Fresh key := by
  intro e he
  obtain ⟨e', he', rfl⟩ := List.mem_map.mp he
  exact h e' he'

end Database

open Database

/-- A committed batch is a step of the books. -/
theorem Commit.books_step {I : Interference Database RowVersion} {born seen t : Log} {c : Call}
    {rows : List RowVersion} (h : Commit I born seen t c rows) :
    Books.Step t.now.books (t.commit rows).now.books := by
  rw [Timeline.now_commit]
  cases h with
  | draft | submitted | approved | requested | assessed | rejected => exact .idle
  | @created cmd inv van start _ _ _ _ hinvoice hexpected hreceived hactive hpos hid _ hkey =>
      have hb := t.now.books_post (e := (cmd.debit inv.invoiceNumber van.id).row start)
        (v := van) rfl
      -- The advance opens the account.
      have hvan : van.book = ⟨van.book.advance, cmd.expectedAmountCents, 0, false⟩ := by
        simp [VirtualAccount.book, hexpected, hreceived, hactive]
      rw [hvan] at hb
      have hnew : t.now.books.account van.id = none := congrArg (Option.map VirtualAccount.book) hid
      have hs := Books.Step.openAccount van.id van.book.advance (advanceKey cmd.invoiceText)
        cmd.expectedAmountCents ⟨cmd.invoiceText, hinvoice.symm, rfl⟩ hnew hpos (fresh_books hkey)
      exact hb ▸ hs
  | @paid cmd van v start _ _ _ _ _ hpos hkey hrow _ =>
      have hb := t.now.books_post (e := (cmd.credit van.id).row start)
        (v := v.receive cmd.amountCents) (van_id hrow).symm
      exact hb ▸ Books.Step.credit van.id cmd.idempotencyKey cmd.amountCents v.book _
        (account_books_of_van hrow) hpos (fresh_books hkey)
  | @settled cmd van v o settledAt start _ _ _ _ _ hpos hkey hrow _ _ =>
      have hb := t.now.books_post (e := (cmd.credit van.id).row start)
        (v := (v.receive cmd.amountCents).settle) (van_id hrow).symm
      have hs := Books.Step.credit van.id cmd.idempotencyKey cmd.amountCents v.book
        ((v.receive cmd.amountCents).settle.status == .settled)
        (account_books_of_van hrow) hpos (fresh_books hkey)
      -- The batch writes the account twice and the invoice, but the books see the last row only.
      refine Eq.subst (motive := fun b => Books.Step t.now.books b) ?_ (hb ▸ hs)
      refine books_congr (fun id => ?_) ?_
      · by_cases hv : v.id = id <;> simp [writeAll_append, hv]
      · simp [writeAll_append]

/-! ### Runs -/

/-- No virtual account exists and the ledger is empty. -/
structure Database.NoAccounts (db : Database) : Prop where
  van : ∀ id, db.van id = none
  ledger : db.ledgerEntries = []

/-- Without accounts the books are empty. -/
theorem Database.NoAccounts.balanced {db : Database} (h : db.NoAccounts) :
    Books.Balanced db.books :=
  Books.Balanced.empty (fun id => by simp [books, h.van id]) (by simp [books, h.ledger])

/-- In every committed moment of a run the books are balanced. -/
theorem balanced_of_run {db : Database} (hdb : db.NoAccounts)
    {ok : ServiceWorld → Step → Prop} {w : ServiceWorld} (h : Runs ok (.start db) w) :
    ∀ u ≤ w.timeline, Books.Balanced u.now.books := by
  refine Runs.invariant (C := fun _ _ => True) (Or.inl Interference.concurrent_shared)
    (fun _ _ _ => trivial) (Timeline.commits_start _ _) (fun u hu => ?_) ?_ h
  · rw [Timeline.le_start_iff.mp hu]
    exact hdb.balanced
  · intro c born seen t rows _ hc _ ih
    exact (ih t (le_refl t)).step hc.books_step

/-- The ledger conservation of one database state. The key of an advance has the invoice in some
spelling. -/
structure Database.Conserved (db : Database) : Prop where
  received : ∀ v ∈ db.virtualAccounts,
    v.receivedAmountCents = ((db.creditsOf v.id).map LedgerEntry.amountCents).sum
  advance : ∀ v ∈ db.virtualAccounts, ∃ e, db.debitsOf v.id = [e] ∧
    (∃ text : UuidText, text.uuid = v.invoiceId ∧ e.idempotencyKey = advanceKey text) ∧
    e.amountCents = v.expectedAmountCents
  positive : ∀ e ∈ db.ledgerEntries, 0 < e.amountCents
  keys : (db.ledgerEntries.map LedgerEntry.idempotencyKey).Nodup

/-- Balanced books, in terms of the tables. -/
theorem conserved_of_balanced {db : Database} (h : Books.Balanced db.books) : db.Conserved where
  received v hv := by
    have hr := h.received v.id v.book (account_books_of_van (mem_virtualAccounts.mp hv))
    rw [side_credit] at hr
    simpa [Books.total, LedgerEntry.book, VirtualAccount.book, Function.comp_def] using hr
  advance v hv := by
    obtain ⟨key, ⟨text, huuid, rfl⟩, hside⟩ :=
      h.advance v.id v.book (account_books_of_van (mem_virtualAccounts.mp hv))
    rw [side_debit] at hside
    obtain ⟨e, he, hbook⟩ := List.map_eq_singleton_iff.mp hside
    refine ⟨e, he, ⟨text, huuid, ?_⟩, ?_⟩
    · exact congrArg Books.Entry.key hbook
    · exact congrArg Books.Entry.amount hbook
  positive e he := h.positive e.book (List.mem_map_of_mem he)
  keys := by simpa [books, LedgerEntry.book, Function.comp_def] using h.keys

/-- The key of an advance has the invoice as a `createVan` among the `calls` has spelled it. -/
def Database.SpelledBy (db : Database) (calls : Call → Prop) : Prop :=
  ∀ e ∈ db.ledgerEntries, e.entryType = .debit → ∃ v cmd, db.van e.virtualAccountId = some v ∧
    calls (.createVan cmd) ∧ cmd.invoiceId = v.invoiceId ∧
    e.idempotencyKey = advanceKey cmd.invoiceText

/-- A commit of one of the calls. -/
theorem Database.SpelledBy.commit {I : Interference Database RowVersion} {born seen t : Log}
    {c : Call} {rows : List RowVersion} {calls : Call → Prop} (h : t.now.SpelledBy calls)
    (hc : Commit I born seen t c rows) (hcall : calls c) :
    (t.commit rows).now.SpelledBy calls := by
  intro e he hdebit
  rw [Timeline.now_commit, ledgerEntries_writeAll, List.mem_append, mem_writtenEntries] at he
  rcases he with he | he
  · -- The account of an old entry keeps its invoice.
    obtain ⟨v, cmd, hv, hcmd, hinvoice, hkey⟩ := h e he hdebit
    obtain ⟨v', hv', hev⟩ := hc.evolves.van _ v hv
    exact ⟨v', cmd, hv', hcmd, hinvoice.trans hev.invoiceId.symm, hkey⟩
  · rcases hc.entry_cases he with ⟨cmd, inv, van, start, rfl, rfl, hinvoice, hvan⟩ |
      ⟨cmd, van, v, start, -, rfl, -⟩
    · exact ⟨van, cmd, hvan, hcall, hinvoice.symm, rfl⟩
    · -- The entry of a payment is a credit.
      cases hdebit

/-- In every committed moment of a run the advances are spelled by its calls. -/
theorem spelledBy_of_run {db : Database} (hdb : db.NoAccounts)
    {ok : ServiceWorld → Step → Prop} {w : ServiceWorld} (h : Runs ok (.start db) w) :
    ∀ u ≤ w.timeline, u.now.SpelledBy fun c => ∃ s ∈ w.sessions, s.call = c := by
  refine Runs.invariant (C := fun c _ => ∃ s ∈ w.sessions, s.call = c)
    (Or.inl Interference.concurrent_shared) (fun _ c hc => hc c rfl)
    (Timeline.commits_start _ _) (fun u hu => ?_) ?_ (h.of_calls fun s hs => ⟨s, hs, rfl⟩)
  · rw [Timeline.le_start_iff.mp hu]
    intro e he
    rw [Timeline.now_start, hdb.ledger] at he
    cases he
  · intro c born seen t rows hcall hc _ ih
    exact (ih t (le_refl t)).commit hc hcall

/-- Ledger conservation: it holds in every committed moment of every run, and the key of an
advance has the invoice as a `createVan` of the run has spelled it. -/
theorem ledger_conservation {db : Database} (hdb : db.NoAccounts)
    {ok : ServiceWorld → Step → Prop} {w : ServiceWorld} (h : Runs ok (.start db) w) :
    ∀ u ≤ w.timeline, u.now.Conserved ∧
      u.now.SpelledBy fun c => ∃ s ∈ w.sessions, s.call = c :=
  fun u hu => ⟨conserved_of_balanced (balanced_of_run hdb h u hu), spelledBy_of_run hdb h u hu⟩

/-- An account, a payment of a part of the advance and a payment that settles it. -/
theorem ledger_conservation_of_settled_account : ∃ w : ServiceWorld,
    Runs (fun _ _ => True) (.start sampleDb) w ∧
      w.db.ledgerEntries.map LedgerEntry.amountCents = [1000, 400, 600] ∧
      ∀ u ≤ w.timeline, u.now.Conserved ∧
        u.now.SpelledBy fun c => ∃ s ∈ w.sessions, s.call = c := by
  have h : (play (fun _ _ => true) (.start sampleDb) (stepsToAccount ++
      .spawn (.recordPayment (samplePayment 400 "k1")) :: steps 4 10 ++
      .spawn (.recordPayment (samplePayment 600 "k2")) :: steps 5 17)).map
      (fun w => w.db.ledgerEntries.map LedgerEntry.amountCents) = some [1000, 400, 600] := by
    decide +kernel
  obtain ⟨w, hw, hl⟩ := Option.map_eq_some_iff.mp h
  have hrun : Runs (fun _ _ => True) (.start sampleDb) w :=
    runs_of_play (fun _ _ _ => trivial) hw
  exact ⟨w, hrun, hl, ledger_conservation ⟨fun _ => rfl, rfl⟩ hrun⟩

/-- The key of the advance of an account has the stored `invoice_id`. -/
def Database.AdvancesNamed (db : Database) : Prop :=
  ∀ v ∈ db.virtualAccounts, ∃ e, db.debitsOf v.id = [e] ∧
    e.idempotencyKey = advanceKey v.invoiceId.asText ∧ e.amountCents = v.expectedAmountCents

/-- An id with letters, and what a request may send for it. -/
def letterId : Uuid := ⟨"a0eebc99-9c0b-4ef8-bb6d-6bb9bd380a11", by decide +kernel⟩

/-- The same id as a request may spell it, in upper case. -/
def letterText : UuidText := ⟨"A0EEBC99-9C0B-4EF8-BB6D-6BB9BD380A11", by decide +kernel⟩

/-- The requests up to an account whose `createVan` spells the id in upper case. -/
def letterRequests : List Request :=
  [.submit sampleSupplier ⟨"INV-1", sampleSupplier, sampleBuyer, 1000, "INR", 100⟩,
    .approve sampleBuyer letterId "0123456789", .requestFinancing sampleSupplier letterId,
    .createVan ⟨letterText, 1000⟩]

/-- The calls of these requests, one after the other. -/
def letterSteps : List Step :=
  let run (i n : Nat) : List Step :=
    List.replicate n (.step i { sampleEnv with uuid := letterId })
  .spawn sampleSubmit :: run 0 9 ++
    .spawn (.approveInvoice ⟨letterId, sampleBuyer, "0123456789"⟩ sampleBuyer) :: run 1 11 ++
    .spawn (.requestFinancing ⟨letterId, sampleSupplier⟩ sampleSupplier) :: run 2 8 ++
    .spawn (.createVan ⟨letterText, 1000⟩) :: run 3 12

/-- The advance of an account whose `createVan` has spelled the invoice in upper case. -/
theorem advance_of_upper_case : ∃ w : ServiceWorld,
    Runs RoutedStep (.start sampleDb) w ∧ w.quiescent = true ∧ ¬ w.db.AdvancesNamed := by
  have h : (play (routedCheck letterRequests) (.start sampleDb) letterSteps).map
      (fun w => (w.quiescent, w.db.virtualAccounts.rows.map fun v =>
        (v.invoiceId, (w.db.debitsOf v.id).map LedgerEntry.idempotencyKey))) =
      some (true, [(letterId, [advanceKey letterText])]) := by decide +kernel
  obtain ⟨w, hrun, hl⟩ := exists_run_of_play routedStep_of_check h
  simp only [Prod.mk.injEq] at hl
  obtain ⟨hquiescent, hrows⟩ := hl
  refine ⟨w, hrun, hquiescent, fun hnamed => ?_⟩
  obtain ⟨v, hv, hfigures⟩ := List.map_eq_singleton_iff.mp hrows
  simp only [Prod.mk.injEq] at hfigures
  have hmem : v ∈ w.db.virtualAccounts.rows := hv ▸ List.mem_singleton_self v
  obtain ⟨e, hdebits, hkey, -⟩ := hnamed v hmem
  obtain ⟨hinvoice, hkeys⟩ := hfigures
  rw [hdebits, List.map_cons, List.map_nil, hkey, hinvoice, List.cons.injEq] at hkeys
  exact absurd hkeys.1 (by decide +kernel)

end Vanguard
