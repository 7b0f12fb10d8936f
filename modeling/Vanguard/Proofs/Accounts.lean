import Vanguard.Proofs.Runs

/-!
# `Vanguard.Proofs.Accounts`: the accounts and their invoices

`Commit.van_cases` says what a commit does to `virtual_accounts`: nothing, one new account,
or a new version of one account. `Commit.account_change` says for one account which new
version. From the first follow the links between the tables that the other proofs need
(`Linked`): an account has an invoice, and its account number and its invoice are its own.
`linked_of_run` proves them for every committed moment.

`Commit.payment` says what a committed payment has read and what it appends to the ledger, and
`Commit.entry_cases` which entries a batch may have. The keys that the routes let through are
trimmed, so the keys of the ledger are (`keysTrimmed_of_run`).
-/

set_option autoImplicit false

namespace Vanguard

open ReadCommitted Database

/-- A commit leaves the accounts as they are, creates one, or credits a payment to one. -/
theorem Commit.van_cases {I : Interference Database RowVersion} {born seen t : Log} {c : Call}
    {rows : List RowVersion} (h : Commit I born seen t c rows) :
    (∀ id, (t.commit rows).now.van id = t.now.van id) ∨
    (∃ cmd inv van, c = .createVan cmd ∧ seen.now.invoice cmd.invoiceId = some inv ∧
      inv.status = .financingRequested ∧ van.invoiceId = cmd.invoiceId ∧
      van.expectedAmountCents = cmd.expectedAmountCents ∧ van.status = .active ∧
      (∀ id v, t.now.van id = some v →
        v.accountNumber ≠ van.accountNumber ∧ v.invoiceId ≠ van.invoiceId) ∧
      ∀ id, (t.commit rows).now.van id = if van.id = id then some van else t.now.van id) ∨
    (∃ cmd v v', c = .recordPayment cmd ∧ t.now.van v.id = some v ∧ v.Evolves v' ∧
      ∀ id, (t.commit rows).now.van id = if v.id = id then some v' else t.now.van id) := by
  rw [Timeline.now_commit]
  cases h with
  | draft | submitted | approved | requested | assessed | rejected => exact Or.inl fun _ => rfl
  | @created cmd inv van start _ _ hinv hstatus hinvoice hexpected _ hactive _ _ hkeys _ =>
      refine Or.inr (Or.inl
        ⟨cmd, inv, van, rfl, hinv, hstatus, hinvoice, hexpected, hactive, ?_, ?_⟩)
      · intro id v hv
        exact hkeys v (mem_virtualAccounts.mpr (van_id hv ▸ hv))
      · intro id
        simp
  | @paid cmd van v start _ _ _ _ _ _ _ hrow _ =>
      refine Or.inr (Or.inr ⟨cmd, v, v.receive cmd.amountCents, rfl, van_id hrow ▸ hrow,
        v.evolves_receive _, ?_⟩)
      intro id
      by_cases hv : v.id = id <;> simp [hv]
  | @settled cmd van v o settledAt start _ _ _ _ _ _ _ hrow _ _ =>
      refine Or.inr (Or.inr ⟨cmd, v, (v.receive cmd.amountCents).settle, rfl, van_id hrow ▸ hrow,
        (v.evolves_receive _).trans (VirtualAccount.evolves_settle _), ?_⟩)
      intro id
      by_cases hv : v.id = id <;> simp [writeAll_append, hv]

/-- Where an account of the database after a commit comes from: it was there before, or the
commit has created it and no other account has its number or its invoice. -/
theorem Commit.van_origin {I : Interference Database RowVersion} {born seen t : Log} {c : Call}
    {rows : List RowVersion} (h : Commit I born seen t c rows) {id : Uuid} {v : VirtualAccount}
    (hv : (t.commit rows).now.van id = some v) :
    (∃ v₀, t.now.van id = some v₀ ∧ v₀.Evolves v) ∨
    (∃ cmd inv, c = .createVan cmd ∧ seen.now.invoice cmd.invoiceId = some inv ∧
      inv.status = .financingRequested ∧ v.invoiceId = cmd.invoiceId ∧
      v.expectedAmountCents = cmd.expectedAmountCents ∧ v.status = .active ∧
      ∀ id' v', id' ≠ id → (t.commit rows).now.van id' = some v' →
        v'.accountNumber ≠ v.accountNumber ∧ v'.invoiceId ≠ v.invoiceId) := by
  rcases h.van_cases with hsame | ⟨cmd, inv, van, hc, hinv, hs, hi, he, ha, hkeys, hafter⟩ |
    ⟨cmd, v₁, v', -, hv₁, hev, hafter⟩
  · exact Or.inl ⟨v, hsame id ▸ hv, VirtualAccount.Evolves.refl v⟩
  · rw [hafter] at hv
    split at hv
    · rename_i hid
      cases hv
      refine Or.inr ⟨cmd, inv, hc, hinv, hs, hi, he, ha, fun id' v' hne hv' => ?_⟩
      rw [hafter, if_neg (fun h => hne (h.symm.trans hid))] at hv'
      exact hkeys id' v' hv'
    · exact Or.inl ⟨v, hv, VirtualAccount.Evolves.refl v⟩
  · rw [hafter] at hv
    split at hv
    · rename_i hid
      cases hv
      exact Or.inl ⟨v₁, hid ▸ hv₁, hev⟩
    · exact Or.inl ⟨v, hv, VirtualAccount.Evolves.refl v⟩

/-- What a commit does to the account `id`: nothing, it opens it, or it books a payment on it.
The row `v` is the account of the moment `t`, on which the payment has taken its lock. -/
inductive AccountChange (I : Interference Database RowVersion) (born seen t : Log)
    (rows : List RowVersion) (id : Uuid) : Call → Prop where
  | kept {c : Call} (h : (t.commit rows).now.van id = t.now.van id) :
      AccountChange I born seen t rows id c
  | opened {cmd : CreateVanCommand} (inv : Invoice) (van : VirtualAccount)
      (hinv : seen.now.invoice cmd.invoiceId = some inv)
      (hinvoice : van.invoiceId = cmd.invoiceId)
      (hexpected : van.expectedAmountCents = cmd.expectedAmountCents)
      (hreceived : van.receivedAmountCents = 0) (hactive : van.status = .active)
      (hpositive : 0 < cmd.expectedAmountCents) (hnone : t.now.van id = none)
      (h : (t.commit rows).now.van id = some van) :
      AccountChange I born seen t rows id (.createVan cmd)
  | credited {cmd : RecordPaymentCommand} (van v : VirtualAccount)
      (hpaying : Paying I born seen t cmd van v) (hv : t.now.van id = some v)
      (hopen : ¬ (v.receive cmd.amountCents).paidInFull)
      (h : (t.commit rows).now.van id = some (v.receive cmd.amountCents)) :
      AccountChange I born seen t rows id (.recordPayment cmd)
  | settled {cmd : RecordPaymentCommand} (van v : VirtualAccount)
      (hpaying : Paying I born seen t cmd van v) (hv : t.now.van id = some v)
      (hfull : (v.receive cmd.amountCents).paidInFull)
      (h : (t.commit rows).now.van id = some (v.receive cmd.amountCents).settle) :
      AccountChange I born seen t rows id (.recordPayment cmd)

/-- What a commit does to one account, by cases on the call. -/
theorem Commit.account_change {I : Interference Database RowVersion} {born seen t : Log}
    {c : Call} {rows : List RowVersion} (h : Commit I born seen t c rows) (id : Uuid) :
    AccountChange I born seen t rows id c := by
  cases h with
  | draft | submitted | approved | requested | assessed | rejected => exact .kept rfl
  | created inv van start _ _ hinv _ hinvoice hexpected hreceived hactive hpositive hid =>
      by_cases hvan : van.id = id
      · exact .opened inv van hinv hinvoice hexpected hreceived hactive hpositive (hvan ▸ hid)
          (by simp [hvan])
      · exact .kept (by simp [hvan])
  | paid van v start hborn hseen hvan hactive hnew hamount hkey hrow hopen =>
      have hid := van_id hrow
      by_cases hvid : van.id = id
      · exact .credited van v ⟨hborn, hseen, hvan, hactive, hnew, hamount, hkey, hrow⟩
          (hvid ▸ hrow) hopen (by simp [hid, hvid])
      · exact .kept (by simp [hid, hvid])
  | settled van v o settledAt start hborn hseen hvan hactive hnew hamount hkey hrow hfull =>
      have hid := van_id hrow
      by_cases hvid : van.id = id
      · exact .settled van v ⟨hborn, hseen, hvan, hactive, hnew, hamount, hkey, hrow⟩
          (hvid ▸ hrow) hfull (by simp [writeAll_append, hid, hvid])
      · exact .kept (by simp [writeAll_append, hid, hvid])

/-- The links of the accounts. -/
structure Database.Linked (db : Database) : Prop where
  invoice : ∀ id v, db.van id = some v → ∃ r, db.invoice v.invoiceId = some r
  accountNumber : ∀ id id' v v', db.van id = some v → db.van id' = some v' →
    v.accountNumber = v'.accountNumber → id = id'
  invoiceId : ∀ id id' v v', db.van id = some v → db.van id' = some v' →
    v.invoiceId = v'.invoiceId → id = id'

namespace Database.Linked

variable {db : Database}

/-- The account that a request by number finds. -/
theorem vanByNumber (h : db.Linked) {id : Uuid} {v : VirtualAccount}
    (hv : db.van id = some v) : db.vanByNumber v.accountNumber = some v := by
  cases hf : db.vanByNumber v.accountNumber with
  | none =>
      have hmem : v ∈ db.virtualAccounts := mem_virtualAccounts.mpr (van_id hv ▸ hv)
      have := List.find?_eq_none.mp hf v hmem
      simp at this
  | some v' =>
      obtain ⟨hv', hnumber⟩ := vanByNumber_some hf
      have hid := h.accountNumber _ _ _ _ hv' hv hnumber
      rw [hid, hv] at hv'
      exact hv'.symm

end Database.Linked

/-- A commit keeps the links. -/
theorem Database.Linked.commit {I : Interference Database RowVersion} {born seen t : Log}
    {c : Call} {rows : List RowVersion} (h : t.now.Linked) (hc : Commit I born seen t c rows)
    (hseen : seen.now.Evolves t.now) : (t.commit rows).now.Linked := by
  have distinct : ∀ {β : Type} (f : VirtualAccount → β), (∀ v v', v.Evolves v' → f v' = f v) →
      (∀ id id' v v', t.now.van id = some v → t.now.van id' = some v' → f v = f v' → id = id') →
      (∀ v v' : VirtualAccount, v'.accountNumber ≠ v.accountNumber ∧ v'.invoiceId ≠ v.invoiceId →
        f v' ≠ f v) →
      ∀ id id' v v', (t.commit rows).now.van id = some v →
        (t.commit rows).now.van id' = some v' → f v = f v' → id = id' := by
    intro β f hf hold hnew id id' v v' hv hv' heq
    by_contra hne
    -- At most one of the two accounts is new, and a new one has new keys.
    rcases hc.van_origin hv with ⟨v₀, hv₀, he⟩ | ⟨-, -, -, -, -, -, -, -, hothers⟩
    · rcases hc.van_origin hv' with ⟨v₀', hv₀', he'⟩ | ⟨-, -, -, -, -, -, -, -, hothers⟩
      · exact hne (hold id id' v₀ v₀' hv₀ hv₀' (by rw [← hf _ _ he, heq, hf _ _ he']))
      · exact hnew _ _ (hothers id v hne hv) heq
    · exact hnew _ _ (hothers id' v' (Ne.symm hne) hv') heq.symm
  refine ⟨fun id v hv => ?_, ?_, ?_⟩
  · -- No invoice is deleted, neither the one of an old account nor the one just read.
    rcases hc.van_origin hv with ⟨v₀, hv₀, he⟩ | ⟨cmd, inv, -, hinv, -, hi, -⟩
    · obtain ⟨r, hr⟩ := h.invoice id v₀ hv₀
      obtain ⟨r', hr', -⟩ := hc.evolves.invoice _ r hr
      exact ⟨r', he.invoiceId ▸ hr'⟩
    · obtain ⟨r, hr, -⟩ := (hseen.trans hc.evolves).invoice _ inv hinv
      exact ⟨r, hi ▸ hr⟩
  · exact distinct VirtualAccount.accountNumber (fun _ _ he => he.accountNumber)
      h.accountNumber fun _ _ hne => hne.1
  · exact distinct VirtualAccount.invoiceId (fun _ _ he => he.invoiceId) h.invoiceId
      fun _ _ hne => hne.2

/-- In every committed moment of a run the accounts are linked. -/
theorem linked_of_run {db : Database} (hdb : ∀ id, db.van id = none)
    {ok : ServiceWorld → Step → Prop} {w : ServiceWorld} (h : Runs ok (.start db) w) :
    ∀ u ≤ w.timeline, u.now.Linked := by
  refine Runs.invariant (C := fun _ _ => True) (Or.inl Interference.concurrent_shared)
    (fun _ _ _ => trivial) (Timeline.commits_start _ _) (fun u hu => ?_) ?_ h
  · rw [Timeline.le_start_iff.mp hu]
    constructor
    · intro id v hv
      rw [Timeline.now_start, hdb] at hv
      cases hv
    · intro id id' v v' hv
      rw [Timeline.now_start, hdb] at hv
      cases hv
    · intro id id' v v' hv
      rw [Timeline.now_start, hdb] at hv
      cases hv
  · intro c born seen t rows _ hc hev ih
    exact (ih t (le_refl t)).commit hc (hev.evolves hc.seen_le)

/-! ### The ledger -/

/-- A committed payment: the account that the call has read, and the entry it appends. -/
theorem Commit.payment {I : Interference Database RowVersion} {born seen t : Log}
    {cmd : RecordPaymentCommand} {rows : List RowVersion}
    (h : Commit I born seen t (.recordPayment cmd) rows) :
    ∃ van v start, seen.now.vanByNumber cmd.accountNumber = some van ∧
      t.now.van van.id = some v ∧
      (∀ e ∈ t.now.ledgerEntries, e.idempotencyKey ≠ cmd.idempotencyKey) ∧
      (t.commit rows).now.ledgerEntries =
        t.now.ledgerEntries ++ [(cmd.credit van.id).row start] := by
  rw [Timeline.now_commit]
  cases h with
  | paid van v start _ _ hvan _ _ _ hkey hrow =>
      exact ⟨van, v, start, hvan, hrow, hkey, by simp⟩
  | settled van v o _ start _ _ hvan _ _ _ hkey hrow =>
      exact ⟨van, v, start, hvan, hrow, hkey, by simp [writeAll_append]⟩

/-- The ledger entry of a batch: the advance of the account that it opens, or the credit of a
payment. -/
theorem Commit.entry_cases {I : Interference Database RowVersion} {born seen t : Log} {c : Call}
    {rows : List RowVersion} (h : Commit I born seen t c rows) {e : LedgerEntry}
    (he : .ledgerEntry e ∈ rows) :
    (∃ (cmd : CreateVanCommand) (inv : Invoice) (van : VirtualAccount) (start : Env),
      c = .createVan cmd ∧ e = (cmd.debit inv.invoiceNumber van.id).row start ∧
      van.invoiceId = cmd.invoiceId ∧ (t.commit rows).now.van van.id = some van) ∨
    (∃ cmd van v start, c = .recordPayment cmd ∧ e = (cmd.credit van.id).row start ∧
      Paying I born seen t cmd van v) := by
  cases h with
  | draft | submitted | approved | requested | assessed | rejected => simp at he
  | @created cmd inv van start _ _ _ _ hinvoice =>
      have he : e = (cmd.debit inv.invoiceNumber van.id).row start := by simpa using he
      exact Or.inl ⟨cmd, inv, van, start, rfl, he, hinvoice, by simp⟩
  | @paid cmd van v start hborn hseen hvan hactive hnew hamount hkey hrow =>
      have he : e = (cmd.credit van.id).row start := by simpa using he
      exact Or.inr ⟨cmd, van, v, start, rfl, he,
        ⟨hborn, hseen, hvan, hactive, hnew, hamount, hkey, hrow⟩⟩
  | @settled cmd van v o settledAt start hborn hseen hvan hactive hnew hamount hkey hrow =>
      have he : e = (cmd.credit van.id).row start := by
        cases o <;> simpa [updateRow] using he
      exact Or.inr ⟨cmd, van, v, start, rfl, he,
        ⟨hborn, hseen, hvan, hactive, hnew, hamount, hkey, hrow⟩⟩

/-- The key of a ledger entry after a commit: an old entry, an advance, or a payment. -/
theorem Commit.entry_origin {I : Interference Database RowVersion} {born seen t : Log}
    {c : Call} {rows : List RowVersion} (h : Commit I born seen t c rows) {e : LedgerEntry}
    (he : e ∈ (t.commit rows).now.ledgerEntries) :
    e ∈ t.now.ledgerEntries ∨ (∃ text, e.idempotencyKey = advanceKey text) ∨
      ∃ cmd, c = .recordPayment cmd ∧ e.idempotencyKey = cmd.idempotencyKey := by
  cases c with
  | recordPayment cmd =>
      obtain ⟨van, v, start, -, -, -, hledger⟩ := h.payment
      rw [hledger] at he
      rcases List.mem_append.mp he with he | he
      · exact Or.inl he
      · exact Or.inr (Or.inr ⟨cmd, rfl, List.mem_singleton.mp he ▸ rfl⟩)
  | createVan cmd =>
      cases h with
      | created inv van start =>
          rcases List.mem_append.mp he with he | he
          · exact Or.inl he
          · exact Or.inr (Or.inl ⟨cmd.invoiceText, List.mem_singleton.mp he ▸ rfl⟩)
  | submitInvoice | approveInvoice | requestFinancing | assessAndRecord =>
      cases h <;> exact Or.inl he

/-- The keys of the ledger have no white space at the ends. -/
def Database.KeysTrimmed (db : Database) : Prop :=
  ∀ e ∈ db.ledgerEntries, trim e.idempotencyKey = e.idempotencyKey

/-- With trimmed keys, the first layer compares the keys themselves. -/
theorem isDuplicate_iff {db : Database} (hdb : db.KeysTrimmed) {key : String}
    (hkey : trim key = key) (id : Uuid) : isDuplicate (db.entriesOf id) key = true ↔
      ∃ e ∈ db.ledgerEntries, e.virtualAccountId = id ∧ e.idempotencyKey = key := by
  simp only [isDuplicate, entriesOf, List.any_eq_true, List.mem_filter, beq_iff_eq, hkey]
  constructor
  · rintro ⟨e, ⟨he, hid⟩, htrim⟩
    exact ⟨e, he, hid, (hdb e he).symm.trans htrim⟩
  · rintro ⟨e, he, hid, hk⟩
    exact ⟨e, ⟨he, hid⟩, (hdb e he).trans hk⟩

/-- The characters of an advance key are not white space. -/
theorem trim_advanceKey (invoice : UuidText) : trim (advanceKey invoice) = advanceKey invoice := by
  have hprefix : ("advance-".toList.all fun c => isSpace c == false) = true := by decide
  refine trim_eq_self fun c hc => ?_
  rw [advanceKey, String.toList_append, List.mem_append] at hc
  rcases hc with hc | hc
  · exact beq_iff_eq.mp (List.all_eq_true.mp hprefix c hc)
  · exact isSpace_of_isUuidTextChar (List.all_eq_true.mp invoice.spelled c hc)

/-- `recordPaymentSchema` trims the key, and bounds the amount. -/
theorem recordPaymentSchema_some {body cmd : RecordPaymentCommand}
    (h : recordPaymentSchema body = some cmd) : trim cmd.idempotencyKey = cmd.idempotencyKey ∧
      0 < cmd.amountCents ∧ cmd.amountCents ≤ maxSafeInteger := by
  rw [recordPaymentSchema] at h
  split at h
  · rename_i hb
    cases h
    simp only [positiveInt, Bool.and_eq_true, decide_eq_true_eq] at hb
    exact ⟨trim_trim _, hb.2.1.1, hb.2.1.2⟩
  · cases h

/-- A routed payment comes from a body that has passed its schema. -/
theorem Call.Routed.payment {cmd : RecordPaymentCommand} (h : (Call.recordPayment cmd).Routed) :
    ∃ body, recordPaymentSchema body = some cmd := by
  obtain ⟨r, hr⟩ := h
  cases r <;> simp [Request.call] at hr
  exact ⟨_, hr⟩

/-- In every committed moment of the HTTP operations the keys are trimmed. -/
theorem keysTrimmed_of_run {db : Database} (hdb : db.ledgerEntries = []) {w : ServiceWorld}
    (h : Runs RoutedStep (.start db) w) : ∀ u ≤ w.timeline, u.now.KeysTrimmed := by
  refine Runs.invariant (C := fun c _ => c.Routed) (Or.inl Interference.concurrent_shared)
    (fun _ c ha => ha c rfl) (Timeline.commits_start _ _) (fun u hu => ?_) ?_ h
  · rw [Timeline.le_start_iff.mp hu]
    intro e he
    rw [Timeline.now_start, hdb] at he
    cases he
  · intro c born seen t rows hroute hc hev ih e he
    rcases hc.entry_origin he with he | ⟨text, hkey⟩ | ⟨cmd, rfl, hkey⟩
    · exact ih t (le_refl t) e he
    · -- The key of an advance has no white space at all.
      rw [hkey]
      exact trim_advanceKey text
    · obtain ⟨body, hbody⟩ := hroute.payment
      rw [hkey]
      exact (recordPaymentSchema_some hbody).1

/-- The expected amounts are integers that `Number` represents. -/
def Database.ExpectedSafe (db : Database) : Prop :=
  ∀ id v, db.van id = some v → v.expectedAmountCents ≤ maxSafeInteger

/-- The amount of a routed account is safe. -/
theorem Call.Routed.expected {cmd : CreateVanCommand} (h : (Call.createVan cmd).Routed) :
    cmd.expectedAmountCents ≤ maxSafeInteger := by
  obtain ⟨r, hr⟩ := h
  cases r <;> simp [Request.call, createVanSchema, positiveInt] at hr
  obtain ⟨⟨-, hmax⟩, rfl⟩ := hr
  exact hmax

/-- In the runs of the routes every account expects a safe integer of cents, at every
moment. -/
theorem expectedSafe_of_run {db : Database} (hdb : ∀ id, db.van id = none) {w : ServiceWorld}
    (h : Runs RoutedStep (.start db) w) : ∀ u ≤ w.timeline, u.now.ExpectedSafe := by
  refine Runs.invariant (C := fun c _ => c.Routed) (Or.inl Interference.concurrent_shared)
    (fun _ c ha => ha c rfl) (Timeline.commits_start _ _) (fun u hu => ?_) ?_ h
  · rw [Timeline.le_start_iff.mp hu]
    intro id v hv
    rw [Timeline.now_start, hdb] at hv
    cases hv
  · intro c born seen t rows hroute hc _ ih id v hv
    rcases hc.van_origin hv with ⟨v₀, hv₀, hev⟩ | ⟨cmd, inv, rfl, -, -, -, hexpected, -⟩
    · rw [hev.expectedAmountCents]
      exact ih t (le_refl t) id v₀ hv₀
    · rw [hexpected]
      exact hroute.expected

end Vanguard
