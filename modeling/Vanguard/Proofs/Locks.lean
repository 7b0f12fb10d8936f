import Vanguard.Library.Schedules
import Vanguard.Proofs.Replies

/-!
# `Vanguard.Proofs.Locks`: no row-lock deadlock

`lockRank` is the rank of the rows that a transaction holds under `rowLocks`: a transaction
that waits for another one holds rows of a lower rank.

The edge that the ranks alone leave open is a payment that waits for an account which
`createVan` has inserted but whose ledger entry it has not. `FreshAccounts` closes it: such an
account has no key in common with a committed one, and the payment updates a committed one.

`no_row_deadlock` is the result for every run. `calls_drain` adds that a call makes at most 18
commands, so that every schedule ends and some schedule ends with every call finished.
-/

set_option autoImplicit false

namespace Vanguard

open ReadCommitted

/-! ### What a transaction holds -/

/-- The rank of the rows that a transaction holds. -/
def lockRank (ws : List RowVersion) : Nat :=
  if holdsInvoice ws then 4
  else if holdsEntry ws then if holdsAccount ws then 3 else 2
  else if holdsAccount ws then 1 else 0

/-- An account that a transaction holds before its ledger entry has no key in common with a
committed account. -/
def FreshAccounts (db : Database) (ws : List RowVersion) : Prop :=
  holdsEntry ws = false → ∀ v, .virtualAccount v ∈ ws → ∀ a ∈ db.virtualAccounts,
    RowVersion.clash (.virtualAccount a) (.virtualAccount v) = false

/-- A transaction that holds nothing has no account to clash. -/
theorem freshAccounts_nil (db : Database) : FreshAccounts db [] :=
  fun _ _ hv => absurd hv List.not_mem_nil

/-- A transaction that holds an entry is past its account's INSERT. -/
theorem freshAccounts_of_entry {db : Database} {ws : List RowVersion}
    (h : holdsEntry ws = true) : FreshAccounts db ws :=
  fun hno => absurd h (by simp [hno])

/-- A row version that is not one of an account leaves the fresh accounts as they are. -/
theorem FreshAccounts.append {db : Database} {ws rows : List RowVersion}
    (h : FreshAccounts db ws) (hrows : ∀ v, .virtualAccount v ∉ rows) :
    FreshAccounts db (ws ++ rows) := by
  intro hno v hv
  rw [holdsEntry, List.any_append, Bool.or_eq_false_iff] at hno
  rcases List.mem_append.mp hv with hv | hv
  · exact h hno.1 v hv
  · exact absurd hv (hrows v)

/-- What a statement of a transaction keeps of `FreshAccounts`. -/
theorem freshAccounts_client {q : Sql} {ws : List RowVersion} {start env : Env} {db : Database}
    {rows : List RowVersion} {b : q.Rows} (hallowed : rowLocks (.client q) ws)
    (h : FreshAccounts db ws) (hx : q.exec start env (writeAll db ws) = .ok (rows, b)) :
    FreshAccounts db (ws ++ rows) := by
  cases q with
  | insertInvoice input => cases hallowed
  | updateInvoiceStatus id status =>
      obtain rfl : _ = rows := congrArg Prod.fst (Except.ok.inj hx)
      refine h.append fun v hv => ?_
      obtain ⟨r, -, hr⟩ := mem_updateRow hv
      cases hr
  | updateInvoiceSignature id signature =>
      obtain rfl : _ = rows := congrArg Prod.fst (Except.ok.inj hx)
      refine h.append fun v hv => ?_
      obtain ⟨r, -, hr⟩ := mem_updateRow hv
      cases hr
  | insertVan input =>
      -- The unique indexes have been checked against the committed accounts.
      obtain rfl : ws = [] := hallowed
      obtain ⟨rfl, -, -, hid, hkeys, -⟩ := insertVan_ok hx
      intro _ v hv a ha
      cases List.mem_singleton.mp hv
      obtain ⟨hnumber, hinvoice⟩ := hkeys a ha
      have hne : a.id ≠ env.uuid := by
        intro he
        rw [← he] at hid
        rw [show (writeAll db ([] : List RowVersion)).van a.id = some a from
          Database.mem_virtualAccounts.mp ha] at hid
        cases hid
      simp [RowVersion.clash, CreateVanInput.row, hne, hnumber, hinvoice]
  | updateReceivedAmount id additional =>
      refine freshAccounts_of_entry ?_
      rw [holdsEntry, List.any_append, Bool.or_eq_true]
      exact Or.inl hallowed.1
  | settleAccount id =>
      refine freshAccounts_of_entry ?_
      rw [holdsEntry, List.any_append, Bool.or_eq_true]
      exact Or.inl hallowed.1
  | insertLedgerEntry input =>
      obtain ⟨rfl, -⟩ := insertLedgerEntry_ok hx
      exact freshAccounts_of_entry (holdsEntry_of_mem (e := input.row start) (by simp))
  | insertEvent input =>
      obtain ⟨rfl, -⟩ := insertEvent_ok hx
      exact h.append fun v hv => by simp at hv
  | _ =>
      obtain rfl := Sql.rows_of_isSelect hallowed hx
      rwa [List.append_nil]

/-- A statement on the pool brings in no account that clashes. -/
theorem freshAccounts_pool {q : Sql} {ws : List RowVersion} {env : Env} {db : Database}
    {rows : List RowVersion} {b : q.Rows} (hallowed : rowLocks (.pool q) ws)
    (h : FreshAccounts db ws) (hx : q.exec env env db = .ok (rows, b)) :
    FreshAccounts (writeAll db rows) ws := by
  by_cases hq : q.isSelect = true
  · obtain rfl := Sql.rows_of_isSelect hq hx
    exact h
  · cases q with
    | insertInvoice input =>
        obtain rfl : ws = [] := hallowed
        exact freshAccounts_nil _
    | _ => exact absurd hallowed hq

/-- The accounts of another commit do not clash with the ones that a transaction holds. -/
theorem FreshAccounts.others {db : Database} {ws rows : List RowVersion}
    (h : FreshAccounts db ws) (hc : compatible (D := Database) rows ws = true) :
    FreshAccounts (writeAll db rows) ws := by
  intro hno v hv a ha
  rcases mem_accounts_writeAll ha with ha | ha
  · exact h hno v hv a ha
  · exact (compatible_iff _ _).mp hc _ ha _ hv

/-- A version of a row of which the transaction holds a version clashes with no row version
that it was compatible with. -/
theorem clash_of_held_invoice {ws ws' : List RowVersion} {r : Invoice} (hr : .invoice r ∈ ws)
    (hc : compatible (D := Database) ws ws' = true) {r₁ : Invoice} (hid : r₁.id = r.id)
    (hnumber : r₁.invoiceNumber = r.invoiceNumber) {x : RowVersion} (hx : x ∈ ws') :
    RowVersion.clash (.invoice r₁) x = false := by
  have h := (compatible_iff _ _).mp hc _ hr _ hx
  cases x with
  | invoice r' => simpa [RowVersion.clash, hid, hnumber] using h
  | _ => rfl

/-- A version with the keys of an account that a transaction holds clashes with nothing that
is compatible with that transaction. -/
theorem clash_of_held_account {ws ws' : List RowVersion} {v : VirtualAccount}
    (hv : .virtualAccount v ∈ ws) (hc : compatible (D := Database) ws ws' = true)
    {v₁ : VirtualAccount} (hid : v₁.id = v.id) (hnumber : v₁.accountNumber = v.accountNumber)
    (hinvoice : v₁.invoiceId = v.invoiceId) {x : RowVersion} (hx : x ∈ ws') :
    RowVersion.clash (.virtualAccount v₁) x = false := by
  have h := (compatible_iff _ _).mp hc _ hv _ hx
  cases x with
  | virtualAccount v' => simpa [RowVersion.clash, hid, hnumber, hinvoice] using h
  | _ => rfl

/-! ### Waiting -/

/-- The lock of an invoice ranks highest. -/
theorem lockRank_lt_invoice {ws ws' : List RowVersion} (h : holdsInvoice ws = false)
    (h' : holdsInvoice ws' = true) : lockRank ws < lockRank ws' := by
  simp only [lockRank, h, h']
  grind

/-- Entry and account together rank above what has no invoice and no account. -/
theorem lockRank_lt_both {ws ws' : List RowVersion} (hi : holdsInvoice ws = false)
    (ha : holdsAccount ws = false) (he' : holdsEntry ws' = true)
    (ha' : holdsAccount ws' = true) : lockRank ws < lockRank ws' := by
  simp only [lockRank, hi, ha, he', ha']
  grind

/-- An entry ranks above what has neither invoice nor entry. -/
theorem lockRank_lt_entry {ws ws' : List RowVersion} (hi : holdsInvoice ws = false)
    (he : holdsEntry ws = false) (he' : holdsEntry ws' = true) : lockRank ws < lockRank ws' := by
  simp only [lockRank, hi, he, he']
  grind

/-- An account ranks above nothing. -/
theorem lockRank_lt_account {ws : List RowVersion} (ha : holdsAccount ws = true) :
    lockRank [] < lockRank ws := by
  rw [show lockRank [] = 0 from rfl]
  simp only [lockRank, ha]
  grind

section
variable {ws ws' : List RowVersion} {db : Database} {x : RowVersion}

/-- An `UPDATE` of an invoice waits only if the transaction holds no invoice. -/
theorem waits_updateInvoice {id : Uuid} (hown : ∀ r, .invoice r ∈ ws → r.id = id)
    (hc : compatible (D := Database) ws ws' = true) {r r₁ : Invoice}
    (hrow : (writeAll db ws).invoice id = some r) (hx : x ∈ ws')
    (hclash : RowVersion.clash (.invoice r₁) x = true) (hid : r₁.id = r.id)
    (hnumber : r₁.invoiceNumber = r.invoiceNumber) : lockRank ws < lockRank ws' := by
  rcases invoiceTable.latest hrow with hm | ⟨-, hno⟩
  · rw [clash_of_held_invoice (holds_invoice.mp hm) hc hid hnumber hx] at hclash
    cases hclash
  · have hfree : holdsInvoice ws = false := by
      rw [← Bool.not_eq_true]
      intro hany
      obtain ⟨y, hy, hyi⟩ := List.any_eq_true.mp hany
      cases y with
      | invoice r₂ => exact hno r₂ (holds_invoice.mpr hy) (hown r₂ hy)
      | _ => cases hyi
    cases x with
    | invoice r' => exact lockRank_lt_invoice hfree (holdsInvoice_of_mem hx)
    | _ => cases hclash

/-- A payment that waits for an account waits for one whose ledger entry is written too. -/
theorem waits_updateReceivedAmount {id : Uuid} {v v₁ : VirtualAccount}
    (hi : holdsInvoice ws = false) (ha : holdsAccount ws = false) (hheld : FreshAccounts db ws')
    (hrow : (writeAll db ws).van id = some v) (hx : x ∈ ws')
    (hclash : RowVersion.clash (.virtualAccount v₁) x = true) (hid : v₁.id = v.id)
    (hnumber : v₁.accountNumber = v.accountNumber) (hinvoice : v₁.invoiceId = v.invoiceId) :
    lockRank ws < lockRank ws' := by
  rcases accountTable.latest hrow with hm | ⟨hdb, -⟩
  · rw [holdsAccount_of_mem (holds_account.mp hm)] at ha
    cases ha
  · cases x with
    | virtualAccount v' =>
        refine lockRank_lt_both hi ha ?_ (holdsAccount_of_mem hx)
        rw [← Bool.not_eq_false]
        intro hno
        -- An account without its entry is new, and `v` is a committed one.
        have hfresh := hheld hno v' hx v (Database.mem_virtualAccounts.mpr
          ((Database.van_id hdb).symm ▸ hdb))
        simp only [RowVersion.clash, hid, hnumber, hinvoice] at hclash hfresh
        rw [hfresh] at hclash
        cases hclash
    | _ => cases hclash

/-- The `UPDATE` that settles an account does not wait: the transaction has updated it
before. -/
theorem settle_never_waits {id : Uuid} {v : VirtualAccount} (ha : holdsAccount ws = true)
    (hown : ∀ v, .virtualAccount v ∈ ws → v.id = id)
    (hc : compatible (D := Database) ws ws' = true) (hrow : (writeAll db ws).van id = some v)
    (hx : x ∈ ws') : RowVersion.clash (.virtualAccount v.settle) x = false := by
  rcases accountTable.latest hrow with hm | ⟨-, hno⟩
  · refine clash_of_held_account (holds_account.mp hm) hc ?_ ?_ ?_ hx <;> rfl
  · obtain ⟨y, hy, hya⟩ := List.any_eq_true.mp ha
    cases y with
    | virtualAccount v₂ => exact absurd (hown v₂ hy) (hno v₂ (holds_account.mpr hy))
    | _ => cases hya

end

/-- The rows are locked in one order: a session that waits holds rows of a lower rank than the
session it waits for. -/
theorem rowLocks_waits {c : Cmd} {env : Env} {db : Database} {tx : Tx Env RowVersion}
    {r r' : RowVersion} {ws : List RowVersion} (hallowed : rowLocks c tx.writes)
    (hheld : FreshAccounts db ws) (hc : compatible (D := Database) tx.writes ws = true)
    (hw : postgres.Writes env db tx r c) (hr' : r' ∈ ws) (hclash : r.clash r' = true) :
    lockRank tx.writes < lockRank ws := by
  cases c with
  | begin | commit | rollback => cases hw
  | ext e => cases hw
  | client q =>
      obtain ⟨start, rows, answer, hx, hr⟩ := hw
      have hx := postgres_exec_ok hx
      cases q with
      | insertInvoice input => cases hallowed
      | updateInvoiceStatus id status =>
          obtain rfl : _ = rows := congrArg Prod.fst (Except.ok.inj hx)
          obtain ⟨r₁, hrow, rfl⟩ := mem_updateRow hr
          exact waits_updateInvoice hallowed hc hrow hr' hclash rfl rfl
      | updateInvoiceSignature id signature =>
          obtain rfl : _ = rows := congrArg Prod.fst (Except.ok.inj hx)
          obtain ⟨r₁, hrow, rfl⟩ := mem_updateRow hr
          exact waits_updateInvoice hallowed hc hrow hr' hclash rfl rfl
      | insertVan input =>
          obtain ⟨rfl, -⟩ := insertVan_ok hx
          obtain rfl := List.mem_singleton.mp hr
          rw [show tx.writes = [] from hallowed]
          cases r' with
          | virtualAccount v' => exact lockRank_lt_account (holdsAccount_of_mem hr')
          | _ => cases hclash
      | updateReceivedAmount id additional =>
          obtain ⟨-, ha, hi⟩ := hallowed
          rcases updateReceivedAmount_ok hx with ⟨v, hrow, rfl, -⟩ | ⟨hnone, -⟩
          · obtain rfl := List.mem_singleton.mp hr
            exact waits_updateReceivedAmount hi ha hheld hrow hr' hclash rfl rfl rfl
          · simp only [Sql.exec, hnone] at hx
            cases hx
            cases hr
      | settleAccount id =>
          obtain ⟨-, ha, hown⟩ := hallowed
          obtain rfl : _ = rows := congrArg Prod.fst (Except.ok.inj hx)
          obtain ⟨v, hrow, rfl⟩ := mem_updateRow hr
          rw [settle_never_waits ha hown hc hrow hr'] at hclash
          cases hclash
      | insertLedgerEntry input =>
          obtain ⟨he, hi⟩ := hallowed
          obtain ⟨rfl, -⟩ := insertLedgerEntry_ok hx
          obtain rfl := List.mem_singleton.mp hr
          cases r' with
          | ledgerEntry e => exact lockRank_lt_entry hi he (holdsEntry_of_mem hr')
          | _ => cases hclash
      | insertEvent input =>
          obtain ⟨rfl, -⟩ := insertEvent_ok hx
          obtain rfl := List.mem_singleton.mp hr
          cases hclash
      | _ =>
          obtain rfl := Sql.rows_of_isSelect hallowed hx
          cases hr
  | pool q =>
      obtain ⟨rows, answer, hx, hr⟩ := hw
      have hx := postgres_exec_ok hx
      by_cases hq : q.isSelect = true
      · obtain rfl := Sql.rows_of_isSelect hq hx
        cases hr
      · cases q with
        | insertInvoice input =>
            obtain ⟨rfl, -⟩ := insertInvoice_ok hx
            obtain rfl := List.mem_singleton.mp hr
            rw [show tx.writes = [] from hallowed]
            cases r' with
            | invoice r₁ => exact lockRank_lt_invoice rfl (holdsInvoice_of_mem hr')
            | _ => cases hclash
        | _ => exact absurd hallowed hq

/-- The lock order of the services. -/
def serviceLocks : LockOrder postgres Call (Except JsError Reply) where
  allowed := Conduct
  answers := Call.answers
  held := FreshAccounts
  release _ := freshAccounts_nil _
  publish _ := freshAccounts_nil _
  client hallowed h hx := freshAccounts_client hallowed.1 h (postgres_exec_ok hx)
  pool hallowed h hx := freshAccounts_pool hallowed.1 h (postgres_exec_ok hx)
  others h _ hc := h.others hc
  rank := lockRank
  waits hallowed _ hheld hc hw hr' hclash := rowLocks_waits hallowed.1 hheld hc hw hr' hclash

/-! ### The length of the calls -/

section
variable {α : Type} {n : Nat}

/-- Taking the first row sends nothing. -/
theorem within_firstRow (rows : List α) : (firstRow rows : Async α).run.Within n := by
  cases rows with
  | nil => exact Await.within_throw _
  | cons r rows => exact Await.within_pure _

/-- Taking the first row or failing sends nothing. -/
theorem within_firstRowOr (message : String) (rows : List α) :
    (firstRowOr message rows : Async α).run.Within n := by
  cases rows with
  | nil => exact Await.within_throw _
  | cons r rows => exact Await.within_pure _

/-- The check of a transition sends nothing. -/
theorem within_assertValidTransition (current next : InvoiceStatus) :
    (assertValidTransition current next).run.Within n := by
  unfold assertValidTransition
  split
  · exact Await.within_pure _
  · exact Await.within_throw _

/-- A query, then what is made of its rows. -/
theorem within_query {q : Sql} (runner : Runner) {f : q.Rows → Async α}
    (hf : ∀ rows, (f rows).run.Within 0) : (runner.query q >>= f).run.Within 1 := by
  cases runner with
  | client => exact Await.within_step (Await.within_await _) hf
  | pool => exact Await.within_step (Await.within_await _) hf

/-- `withClient` takes a connection, may roll back, and releases the connection. -/
theorem within_withClient {body : Async α} {handler : JsError → Async α}
    (hbody : body.run.Within n) (hhandler : ∀ e, (handler e).run.Within 0) :
    (withClient body handler).run.Within (n + 3) := by
  refine Await.within_step (Await.within_await _) fun _ => ?_
  have hrollback : ∀ e, (do rollback; handler e : Async α).run.Within 1 := fun e =>
    Await.within_step (Await.within_await _) fun _ => hhandler e
  have hrelease : release.run.Within 1 := Await.within_await _
  exact Await.within_tryFinally hbody hrollback hrelease

end

/-- A submission sends at most 18 commands. -/
theorem submitInvoice_within (cmd : SubmitInvoiceCommand) (actorId : Uuid) :
    (InvoiceService.submitInvoice cmd actorId).run.Within 18 := by
  unfold InvoiceService.submitInvoice
  dsimp only
  split
  · exact Await.within_throw _
  refine Await.within_step (Await.within_await _) fun now => ?_
  split
  · exact Await.within_throw _
  refine Await.within_step (within_query .pool fun _ => Await.within_pure _) fun existing => ?_
  split
  · exact Await.within_throw _
  refine within_withClient ?_ fun _ => Await.within_throw _
  refine Await.within_step (Await.within_await _) fun _ => ?_
  refine Await.within_step (within_query .pool within_firstRow) fun invoice => ?_
  refine Await.within_bind (m := 0) (n := 11) (within_assertValidTransition _ _) fun _ => ?_
  refine Await.within_step (within_query .client (within_firstRowOr _)) fun _ => ?_
  refine Await.within_step (within_query .client within_firstRow) fun _ => ?_
  exact Await.within_step (Await.within_await _) fun _ => Await.within_pure _

/-- An approval sends at most 18 commands. -/
theorem approveInvoice_within (cmd : ApproveInvoiceCommand) (actorId : Uuid) :
    (InvoiceService.approveInvoice cmd actorId).run.Within 18 := by
  unfold InvoiceService.approveInvoice
  refine Await.within_step (within_query .pool fun _ => Await.within_pure _) fun found => ?_
  cases found with
  | none => exact Await.within_throw _
  | some invoice =>
      dsimp only
      split
      · exact Await.within_throw _
      refine Await.within_bind (m := 0) (n := 17) (within_assertValidTransition _ _) fun _ => ?_
      split
      · exact Await.within_throw _
      refine within_withClient ?_ fun _ => Await.within_throw _
      refine Await.within_step (Await.within_await _) fun _ => ?_
      refine Await.within_step (Await.within_await _) fun _ => ?_
      refine Await.within_step (within_query .client (within_firstRowOr _)) fun _ => ?_
      refine Await.within_step (Await.within_await _) fun _ => ?_
      refine Await.within_step (within_query .client within_firstRow) fun _ => ?_
      refine Await.within_step (Await.within_await _) fun _ => ?_
      -- After the `COMMIT`: the organisation, the credential and the notification.
      refine Await.within_step (within_query .pool fun _ => Await.within_pure _) fun _ => ?_
      refine Await.within_step (Await.within_await _) fun _ => ?_
      split
      · refine Await.within_step (Await.within_await _) fun _ => ?_
        exact Await.within_step (Await.within_await _) fun _ => Await.within_pure _
      · exact Await.within_pure _

/-- A financing request sends at most 18 commands. -/
theorem requestFinancing_within (cmd : RequestFinancingCommand) (actorId : Uuid) :
    (InvoiceService.requestFinancing cmd actorId).run.Within 18 := by
  unfold InvoiceService.requestFinancing
  refine Await.within_step (within_query .pool fun _ => Await.within_pure _) fun found => ?_
  cases found with
  | none => exact Await.within_throw _
  | some invoice =>
      dsimp only
      split
      · exact Await.within_throw _
      refine Await.within_bind (m := 0) (n := 17) (within_assertValidTransition _ _) fun _ => ?_
      refine within_withClient ?_ fun _ => Await.within_throw _
      refine Await.within_step (Await.within_await _) fun _ => ?_
      refine Await.within_step (within_query .client (within_firstRowOr _)) fun _ => ?_
      refine Await.within_step (Await.within_await _) fun _ => ?_
      refine Await.within_step (within_query .client within_firstRow) fun _ => ?_
      exact Await.within_step (Await.within_await _) fun _ => Await.within_pure _

/-- An assessment sends at most 18 commands. -/
theorem assessAndRecord_within (cmd : AssessInvoiceRiskCommand) (actorId : Uuid) :
    (RiskService.assessAndRecord cmd actorId).run.Within 18 := by
  unfold RiskService.assessAndRecord
  refine Await.within_step (within_query .pool fun _ => Await.within_pure _) fun found => ?_
  cases found with
  | none => exact Await.within_throw _
  | some invoice =>
      dsimp only
      split
      · exact Await.within_throw _
      refine Await.within_step (Await.within_await _) fun _ => ?_
      refine within_withClient ?_ fun _ => Await.within_throw _
      refine Await.within_step (Await.within_await _) fun _ => ?_
      refine Await.within_step (within_query .client within_firstRow) fun _ => ?_
      split
      · refine Await.within_step (within_query .client (within_firstRowOr _)) fun _ => ?_
        exact Await.within_step (Await.within_await _) fun _ => Await.within_pure _
      · exact Await.within_step (Await.within_await _) fun _ => Await.within_pure _

/-- Opening an account sends at most 18 commands. -/
theorem createVan_within (cmd : CreateVanCommand) :
    (VanService.createVan cmd).run.Within 18 := by
  unfold VanService.createVan
  refine Await.within_step (within_query .pool fun _ => Await.within_pure _) fun found => ?_
  cases found with
  | none => exact Await.within_throw _
  | some invoice =>
      dsimp only
      split
      · exact Await.within_throw _
      refine Await.within_step (within_query .pool fun _ => Await.within_pure _) fun existing => ?_
      split
      · exact Await.within_throw _
      refine Await.within_bind (m := 2) (n := 14) ?_ fun accountNumber => ?_
      · -- The clock and the random digits of the account number.
        refine Await.within_step (Await.within_await _) fun _ => ?_
        exact Await.within_step (Await.within_await _) fun _ => Await.within_pure _
      refine Await.within_step (Await.within_await _) fun _ => ?_
      refine within_withClient ?_ fun _ => Await.within_throw _
      refine Await.within_step (Await.within_await _) fun _ => ?_
      refine Await.within_step (within_query .client within_firstRow) fun _ => ?_
      refine Await.within_step (within_query .client within_firstRow) fun _ => ?_
      refine Await.within_step (within_query .client within_firstRow) fun _ => ?_
      exact Await.within_step (Await.within_await _) fun _ => Await.within_pure _

/-- A settlement sends at most 8 commands. -/
theorem settle_within (cmd : RecordPaymentCommand) (van updated : VirtualAccount) :
    (VanService.settle cmd van updated).run.Within 8 := by
  unfold VanService.settle
  refine Await.within_step (within_query .client (within_firstRowOr _)) fun _ => ?_
  refine Await.within_step (Await.within_await _) fun _ => ?_
  refine Await.within_step (Await.within_await _) fun _ => ?_
  refine Await.within_step (within_query .client within_firstRow) fun _ => ?_
  refine Await.within_step (Await.within_await _) fun _ => ?_
  refine Await.within_step (within_query .pool fun _ => Await.within_pure _) fun found => ?_
  cases found with
  | none => exact Await.within_pure _
  | some invoice =>
      refine Await.within_step (Await.within_await _) fun _ => ?_
      exact Await.within_step (Await.within_await _) fun _ => Await.within_pure _

/-- A payment sends at most 18 commands. -/
theorem recordPayment_within (cmd : RecordPaymentCommand) :
    (VanService.recordPayment cmd).run.Within 18 := by
  unfold VanService.recordPayment
  refine Await.within_step (within_query .pool fun _ => Await.within_pure _) fun found => ?_
  cases found with
  | none => exact Await.within_throw _
  | some van =>
      dsimp only
      split
      · exact Await.within_throw _
      refine Await.within_step (Await.within_await _) fun entries => ?_
      split
      · exact Await.within_throw _
      split
      · exact Await.within_throw _
      refine within_withClient (n := 13) ?_ fun err => ?_
      · refine Await.within_step (Await.within_await _) fun _ => ?_
        refine Await.within_step (within_query .client within_firstRow) fun _ => ?_
        refine Await.within_step (within_query .client (within_firstRowOr _)) fun updated => ?_
        -- The commit of either branch, the second one, and the ledger.
        have htail : ∀ final : VirtualAccount, (do
            commit
            let ledgerEntries ← VanRepository.getLedgerEntries van.id
            pure ({ virtualAccount := final
                    ledgerEntries := ledgerEntries
                    isFullySettled := final.status == .settled } : VanWithLedger) :
              Async VanWithLedger).run.Within 2 := fun final =>
          Await.within_step (Await.within_await _) fun _ =>
            Await.within_step (Await.within_await _) fun _ => Await.within_pure _
        split
        · exact Await.within_bind (m := 8) (n := 2) (settle_within cmd van updated) htail
        · exact Await.within_step (Await.within_await _) fun _ =>
            (htail updated).mono (by omega)
      · unfold VanService.onPaymentError
        split <;> exact Await.within_throw _

/-- No call makes more than 18 commands, `recordPayment` with a failing last read makes all of
them. -/
theorem Call.within (c : Call) : c.body.run.Within 18 := by
  cases c with
  | submitInvoice cmd actorId =>
      exact Await.within_bind (n := 0) (submitInvoice_within cmd actorId)
        fun _ => Await.within_pure _
  | approveInvoice cmd actorId =>
      exact Await.within_bind (n := 0) (approveInvoice_within cmd actorId)
        fun _ => Await.within_pure _
  | requestFinancing cmd actorId =>
      exact Await.within_bind (n := 0) (requestFinancing_within cmd actorId)
        fun _ => Await.within_pure _
  | assessAndRecord cmd actorId =>
      exact Await.within_bind (n := 0) (assessAndRecord_within cmd actorId)
        fun _ => Await.within_pure _
  | createVan cmd =>
      exact Await.within_bind (n := 0) (createVan_within cmd) fun _ => Await.within_pure _
  | recordPayment cmd =>
      exact Await.within_bind (n := 0) (recordPayment_within cmd) fun _ => Await.within_pure _

/-! ### The runs -/

section
variable {ok : ServiceWorld → Step → Prop} {t : Log} {w : ServiceWorld}

/-- Every world of a run is orderly: its sessions keep to the order of the locks. -/
theorem Runs.orderly (h : Runs ok t w) : w.Orderly serviceLocks.toDiscipline :=
  Run.orderly serviceLocks.toDiscipline (fun _ c _ => c.obeys) (freshAccounts_nil _) h

/-- In every world of every run, if some call has not finished, then some call is not waiting
for a row lock: its next command can run whatever the environment is. -/
theorem no_row_deadlock (h : Runs ok t w) (hq : w.quiescent = false) :
    ∃ i, ∀ env, (w.step postgres (fun c => c.body.run) (.step i env)).isSome = true :=
  h.orderly.progress hq

end

/-- Two payments to one account have written their ledger entries. The first has updated the
account, so the second waits. -/
def stepsToWaitingPayment : List Step :=
  stepsToAccount ++ .spawn (.recordPayment (samplePayment 600 "k1")) ::
    .spawn (.recordPayment (samplePayment 600 "k2")) :: steps 4 6 ++ steps 5 5

/-- The run in which the second payment waits for the account: its next command is not
enabled, but some call's is. -/
theorem no_row_deadlock_payments : ∃ w : ServiceWorld,
    Runs RoutedStep (.start sampleDb) w ∧
      (w.step postgres (fun c => c.body.run) (.step 5 sampleEnv)).isSome = false ∧
      ∃ i, ∀ env, (w.step postgres (fun c => c.body.run) (.step i env)).isSome = true := by
  have h : (play (routedCheck (sampleRequests 600 "k1" ++ sampleRequests 600 "k2"))
      (.start sampleDb) stepsToWaitingPayment).map (fun w => (w.quiescent,
        (w.step postgres (fun c => c.body.run) (.step 5 sampleEnv)).isSome)) =
      some (false, false) := by decide +kernel
  obtain ⟨w, hrun, hw⟩ := exists_run_of_play routedStep_of_check h
  simp only [Prod.mk.injEq] at hw
  exact ⟨w, hrun, hw.2, no_row_deadlock hrun hw.1⟩

section
variable {ok : ServiceWorld → Step → Prop} {t : Log} {w : ServiceWorld}

/-- Without new calls every schedule ends, when no command waits for a connection. From every
world of a run, no schedule makes more than 18 steps in any one call, one that cannot go on has
finished every call, and in any environments some schedule does.

Connections are unlimited here: `World.step` has no pool. With the pool's `max` connections a
call can also wait for one, which `Vanguard.Proofs.Connections` is about. -/
theorem calls_drain (h : Runs ok t w) :
    (∀ sched w', w.schedule postgres (fun c => c.body.run) sched = some w' →
      sched.length ≤ w.sessions.length * 18 ∧ (∀ i, stepsOf i sched ≤ 18) ∧
      ((∀ i, ∃ env, w'.step postgres (fun c => c.body.run) (.step i env) = none) →
        w'.quiescent = true)) ∧
    ∀ envs : Nat → Env, ∃ sched w',
      w.schedule postgres (fun c => c.body.run) sched = some w' ∧ w'.quiescent = true ∧
        ∀ (n : Nat) p, sched[n]? = some p → p.2 = envs n := by
  have hwithin := Run.within (fun _ c _ => c.within) h
  refine ⟨fun sched w' hs => ?_,
    fun envs => h.orderly.drains (World.left_replicate hwithin) envs⟩
  obtain ⟨hlength, hsteps⟩ := World.schedule_le hwithin hs
  refine ⟨hlength, hsteps, fun hstuck => ?_⟩
  cases hq : w'.quiescent with
  | true => rfl
  | false =>
      obtain ⟨i, hi⟩ := (h.orderly.schedule hs).progress (o := serviceLocks) hq
      obtain ⟨env, hnone⟩ := hstuck i
      have hsome := hi env
      rw [hnone] at hsome
      cases hsome

end

/-- The two payments of `stepsToWaitingPayment` can be brought to their ends. -/
theorem calls_drain_payments : ∃ w : ServiceWorld, Runs RoutedStep (.start sampleDb) w ∧
    w.quiescent = false ∧
    (∀ sched w', w.schedule postgres (fun c => c.body.run) sched = some w' →
      sched.length ≤ w.sessions.length * 18 ∧ ∀ i, stepsOf i sched ≤ 18) ∧
    ∃ sched w', w.schedule postgres (fun c => c.body.run) sched = some w' ∧
      w'.quiescent = true := by
  have h : (play (routedCheck (sampleRequests 600 "k1" ++ sampleRequests 600 "k2"))
      (.start sampleDb) stepsToWaitingPayment).map (fun w => w.quiescent) = some false := by
    decide +kernel
  obtain ⟨w, hrun, hq⟩ := exists_run_of_play routedStep_of_check h
  obtain ⟨hlength, hends⟩ := calls_drain hrun
  obtain ⟨sched, w', hs, hq', -⟩ := hends fun _ => sampleEnv
  refine ⟨w, hrun, hq, fun sched w' hs => ?_, sched, w', hs, hq'⟩
  obtain ⟨hle, hsteps, -⟩ := hlength sched w' hs
  exact ⟨hle, hsteps⟩

end Vanguard
