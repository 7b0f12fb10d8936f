import Vanguard.Library.Rules
import Vanguard.Proofs.Tables

/-!
# `Vanguard.Proofs.Statements`: proof rules for the statements of the services

One rule for each repository method and helper that the services call, under
`Engine.rely` at `postgres`. The rules are instances of the rules of the library: they say
what the statement answers, which row versions it adds to the transaction, and why it
fails. Without a fault of the environment (`Faulty`) only a constraint makes a statement
fail.

`wp_withClient` is the rule of the `try … catch … finally` block of the services. The
postcondition of its body (`Closes`) no longer speaks of `ROLLBACK` and `release`.
-/

set_option autoImplicit false

namespace Vanguard

open ReadCommitted

/-- What a service call under proof knows of its own session. -/
abbrev ServiceView := View Database RowVersion Env

/-- Some admitted environment injects a failure. -/
def Faulty (adm : Env → Prop) : Prop := ∃ env, adm env ∧ env.fault = true

/-- The failure that an environment injects into a command of the database. -/
theorem injected_iff {adm : Env → Prop} {e : JsError} :
    postgres.Injected adm e ↔ e = .pg .connectionFailure ∧ Faulty adm := by
  constructor
  · rintro ⟨env, hadm, hf⟩
    simp only [postgres] at hf
    split at hf
    · exact ⟨(Option.some.inj hf).symm, env, hadm, ‹_›⟩
    · cases hf
  · rintro ⟨rfl, env, hadm, hf⟩
    exact ⟨env, hadm, by simp [postgres, hf]⟩

/-- A statement that succeeded has run as SQL says, without a fault. -/
theorem postgres_exec_ok {q : Sql} {start env : Env} {db : Database}
    {r : List RowVersion × q.Rows} (h : postgres.exec q start env db = .ok r) :
    q.exec start env db = .ok r := by
  simp only [postgres] at h
  cases hx : q.exec start env db with
  | ok a => rw [hx] at h; exact congrArg _ (Except.ok.inj h)
  | error e => rw [hx] at h; cases h

/-- A statement fails only with an error of the database. -/
theorem postgres_exec_error {q : Sql} {start env : Env} {db : Database} {e : JsError}
    (h : postgres.exec q start env db = .error e) :
    ∃ pe, e = .pg pe ∧ q.exec start env db = .error pe := by
  simp only [postgres] at h
  cases hx : q.exec start env db with
  | ok a => rw [hx] at h; cases h
  | error pe => rw [hx] at h; exact ⟨pe, (Except.error.inj h).symm, rfl⟩

section
variable {I : Interference Database RowVersion} {adm : Env → Prop}
  {guar : Log → Log → List RowVersion → Prop} {time : Log} {seen : Option Log}

/-! ### Calls that do not touch the database -/

/-- `new Date()` answers at some later moment, and changes nothing. -/
theorem wp_newDate {tx : Tx Env RowVersion} {Q : Except JsError Timestamp → ServiceView → Prop}
    (hok : ∀ t n, I.rel tx.writes time t → Q (.ok n) ⟨t, some (seen.getD t), tx⟩) :
    Await.wp (postgres.rely I adm guar) newDate ⟨time, seen, tx⟩ Q :=
  rely_ext fun t env hrel _ => hok t env.now hrel

/-- `Math.random()` answers at some later moment, and changes nothing. -/
theorem wp_randomDigits {tx : Tx Env RowVersion} {Q : Except JsError Nat → ServiceView → Prop}
    (hok : ∀ t n, I.rel tx.writes time t → Q (.ok n) ⟨t, some (seen.getD t), tx⟩) :
    Await.wp (postgres.rely I adm guar) randomDigits ⟨time, seen, tx⟩ Q :=
  rely_ext fun t env hrel _ => hok t (1000 + env.random % 9000) hrel

/-- `assertValidTransition` throws exactly for a transition that is not in the table. -/
theorem wp_assertValidTransition {current next : InvoiceStatus} {v : ServiceView}
    {Q : Except JsError Unit → ServiceView → Prop}
    (hok : next ∈ validTransitions current → Q (.ok ()) v)
    (herr : next ∉ validTransitions current →
      Q (.error (.invalidTransition current next)) v) :
    Await.wp (postgres.rely I adm guar) (assertValidTransition current next) v Q := by
  unfold assertValidTransition
  split
  · exact hok ‹_›
  · exact herr ‹_›

/-- `pool.connect()` changes nothing, and may fail. -/
theorem wp_connect {tx : Tx Env RowVersion} {Q : Except JsError Unit → ServiceView → Prop}
    (hok : ∀ t, I.rel tx.writes time t → Q (.ok ()) ⟨t, some (seen.getD t), tx⟩)
    (herr : ∀ t, I.rel tx.writes time t → Faulty adm →
      Q (.error (.pg .connectionFailure)) ⟨t, some (seen.getD t), tx⟩) :
    Await.wp (postgres.rely I adm guar) connect ⟨time, seen, tx⟩ Q := by
  refine rely_ext fun t env hrel hadm => ?_
  show Q (if env.fault then _ else _) _
  split
  · exact herr t hrel ⟨env, hadm, ‹_›⟩
  · exact hok t hrel

/-- `client.release()` changes nothing. -/
theorem wp_release {tx : Tx Env RowVersion} {Q : Except JsError Unit → ServiceView → Prop}
    (hok : ∀ t, I.rel tx.writes time t → Q (.ok ()) ⟨t, some (seen.getD t), tx⟩) :
    Await.wp (postgres.rely I adm guar) release ⟨time, seen, tx⟩ Q :=
  rely_ext fun t _ hrel _ => hok t hrel

/-- `queue.add` changes nothing in the database, and may fail. -/
theorem wp_queueAdd {job : Job} {tx : Tx Env RowVersion}
    {Q : Except JsError Unit → ServiceView → Prop}
    (hok : ∀ t, I.rel tx.writes time t → Q (.ok ()) ⟨t, some (seen.getD t), tx⟩)
    (herr : ∀ t, I.rel tx.writes time t → Faulty adm →
      Q (.error .redis) ⟨t, some (seen.getD t), tx⟩) :
    Await.wp (postgres.rely I adm guar) (queueAdd job) ⟨time, seen, tx⟩ Q := by
  refine rely_ext fun t env hrel hadm => ?_
  show Q (if env.fault then _ else _) _
  split
  · exact herr t hrel ⟨env, hadm, ‹_›⟩
  · exact hok t hrel

/-! ### `SELECT` statements -/

/-- A `SELECT` on the pool. -/
theorem wp_select {q : Sql} {f : Database → q.Rows} {tx : Tx Env RowVersion}
    {Q : Except JsError q.Rows → ServiceView → Prop}
    (hread : ∀ env db, q.exec env env db = .ok ([], f db))
    (hok : ∀ t, I.rel tx.writes time t → Q (.ok (f t.now)) ⟨t, some (seen.getD t), tx⟩)
    (herr : ∀ t, I.rel tx.writes time t → Faulty adm →
      Q (.error (.pg .connectionFailure)) ⟨t, some (seen.getD t), tx⟩) :
    Await.wp (postgres.rely I adm guar) (poolQuery q) ⟨time, seen, tx⟩ Q := by
  refine rely_pool_read (f := f) (fun env db => ?_) hok fun t e hrel he => ?_
  · simp only [postgres, hread]
    rfl
  · obtain ⟨rfl, hf⟩ := injected_iff.mp he
    exact herr t hrel hf

/-- `InvoiceRepository.findById` answers with the row of some later moment. -/
theorem wp_findInvoice {id : Uuid} {tx : Tx Env RowVersion}
    {Q : Except JsError (Option Invoice) → ServiceView → Prop}
    (hok : ∀ t, I.rel tx.writes time t →
      Q (.ok (t.now.invoice id)) ⟨t, some (seen.getD t), tx⟩)
    (herr : ∀ t, I.rel tx.writes time t → Faulty adm →
      Q (.error (.pg .connectionFailure)) ⟨t, some (seen.getD t), tx⟩) :
    Await.wp (postgres.rely I adm guar) (InvoiceRepository.findById id) ⟨time, seen, tx⟩ Q := by
  rw [InvoiceRepository.findById, Await.wp_bind]
  refine wp_select (f := fun db => (db.invoice id).toList) (fun _ _ => rfl) ?_ herr
  intro t hrel
  simp only [Await.wp_pure, Option.head?_toList]
  exact hok t hrel

/-- The account that `findByAccountNumber` answers. -/
def Database.vanByNumber (db : Database) (accountNumber : String) : Option VirtualAccount :=
  db.virtualAccounts.rows.find? fun v => v.accountNumber == accountNumber

/-- A lookup by number finds a stored account of that number. -/
theorem Database.vanByNumber_some {db : Database} {number : String} {v : VirtualAccount}
    (h : db.vanByNumber number = some v) : db.van v.id = some v ∧ v.accountNumber = number := by
  refine ⟨Table.get?_of_mem (List.mem_of_find?_eq_some h), ?_⟩
  simpa using List.find?_some h

/-- `VanRepository.findByAccountNumber` answers with the row of some later moment. -/
theorem wp_findVanByNumber {number : String} {tx : Tx Env RowVersion}
    {Q : Except JsError (Option VirtualAccount) → ServiceView → Prop}
    (hok : ∀ t, I.rel tx.writes time t →
      Q (.ok (t.now.vanByNumber number)) ⟨t, some (seen.getD t), tx⟩)
    (herr : ∀ t, I.rel tx.writes time t → Faulty adm →
      Q (.error (.pg .connectionFailure)) ⟨t, some (seen.getD t), tx⟩) :
    Await.wp (postgres.rely I adm guar) (VanRepository.findByAccountNumber number)
      ⟨time, seen, tx⟩ Q := by
  rw [VanRepository.findByAccountNumber, Await.wp_bind]
  refine wp_select (f := fun db => (db.vanByNumber number).toList) (fun _ _ => rfl) ?_ herr
  intro t hrel
  simp only [Await.wp_pure, Option.head?_toList]
  exact hok t hrel

/-- `VanRepository.getLedgerEntries`, up to the order of the entries. -/
theorem wp_getLedgerEntries {vanId : Uuid} {tx : Tx Env RowVersion}
    {Q : Except JsError (List LedgerEntry) → ServiceView → Prop}
    (hok : ∀ t entries, I.rel tx.writes time t → entries.Perm (t.now.entriesOf vanId) →
      Q (.ok entries) ⟨t, some (seen.getD t), tx⟩)
    (herr : ∀ t, I.rel tx.writes time t → Faulty adm →
      Q (.error (.pg .connectionFailure)) ⟨t, some (seen.getD t), tx⟩) :
    Await.wp (postgres.rely I adm guar) (VanRepository.getLedgerEntries vanId)
      ⟨time, seen, tx⟩ Q :=
  wp_select (fun _ _ => rfl)
    (fun t hrel => hok t _ hrel (List.perm_insertionSort (fun a b : LedgerEntry =>
      a.createdAt ≤ b.createdAt) _)) herr

/-- A `SELECT` on the client outside a transaction. -/
theorem wp_clientSelect {q : Sql} {f : Database → q.Rows}
    {Q : Except JsError q.Rows → ServiceView → Prop}
    (hread : ∀ env db, q.exec env env db = .ok ([], f db))
    (hok : ∀ t, I.rel [] time t → Q (.ok (f t.now)) ⟨t, some (seen.getD t), .idle⟩)
    (herr : ∀ t, I.rel [] time t → Faulty adm →
      Q (.error (.pg .connectionFailure)) ⟨t, some (seen.getD t), .idle⟩) :
    Await.wp (postgres.rely I adm guar) (clientQuery q) ⟨time, seen, .idle⟩ Q :=
  wp_select hread hok herr

/-- `InvoiceRepository.save`, on the pool: the draft is committed at once. -/
theorem wp_save {input : CreateInvoiceInput} {tx : Tx Env RowVersion}
    {Q : Except JsError Invoice → ServiceView → Prop}
    (hok : ∀ t env, I.rel tx.writes time t → 0 < input.amountCents →
      input.buyerId ≠ input.supplierId → t.now.invoice env.uuid = none →
      guar (seen.getD t) t [.invoice (input.row env env)] ∧
        Q (.ok (input.row env env))
          ⟨t.commit [.invoice (input.row env env)], some (seen.getD t), tx⟩)
    (herr : ∀ t e, I.rel tx.writes time t → Q (.error e) ⟨t, some (seen.getD t), tx⟩) :
    Await.wp (postgres.rely I adm guar) (InvoiceRepository.save input) ⟨time, seen, tx⟩ Q := by
  rw [InvoiceRepository.save, Await.wp_bind]
  refine rely_pool ?_ fun t e hrel _ => herr t e hrel
  intro t env rows ans hrel _ hx
  obtain ⟨rfl, rfl, hpos, hparties, hid⟩ := insertInvoice_ok (postgres_exec_ok hx)
  obtain ⟨hg, hq⟩ := hok t env hrel hpos hparties hid
  exact ⟨fun _ => hg, hq⟩

/-! ### Statements of a transaction -/

section
variable {start : Env} {ws : List RowVersion}

/-- `BEGIN` opens a transaction at some later moment, or fails. -/
theorem wp_begin {Q : Except JsError Unit → ServiceView → Prop}
    (hok : ∀ t start, I.rel [] time t → Q (.ok ()) ⟨t, some (seen.getD t), .active start []⟩)
    (herr : ∀ t, I.rel [] time t → Faulty adm →
      Q (.error (.pg .connectionFailure)) ⟨t, some (seen.getD t), .idle⟩) :
    Await.wp (postgres.rely I adm guar) begin ⟨time, seen, .idle⟩ Q := by
  refine rely_begin (fun t env hrel _ => hok t env hrel) fun t e hrel he => ?_
  obtain ⟨rfl, hf⟩ := injected_iff.mp he
  exact herr t hrel hf

/-- `COMMIT` publishes the writes, given the guarantee at that moment, or fails. -/
theorem wp_commit {Q : Except JsError Unit → ServiceView → Prop}
    (hguar : ∀ t, I.rel ws time t → guar (seen.getD t) t ws)
    (hok : ∀ t, I.rel ws time t → Q (.ok ()) ⟨t.publish ws, some (seen.getD t), .idle⟩)
    (herr : ∀ t, I.rel ws time t → Faulty adm →
      Q (.error (.pg .connectionFailure)) ⟨t, some (seen.getD t), .idle⟩) :
    Await.wp (postgres.rely I adm guar) commit ⟨time, seen, .active start ws⟩ Q := by
  refine rely_commit hguar hok fun t e hrel he => ?_
  obtain ⟨rfl, hf⟩ := injected_iff.mp he
  exact herr t hrel hf

/-- `COMMIT` outside a transaction publishes nothing. -/
theorem wp_commit_idle {Q : Except JsError Unit → ServiceView → Prop}
    (hok : ∀ t, I.rel [] time t → Q (.ok ()) ⟨t, some (seen.getD t), .idle⟩)
    (herr : ∀ t, I.rel [] time t → Faulty adm →
      Q (.error (.pg .connectionFailure)) ⟨t, some (seen.getD t), .idle⟩) :
    Await.wp (postgres.rely I adm guar) commit ⟨time, seen, .idle⟩ Q := by
  refine rely_commit_idle hok fun t e hrel he => ?_
  obtain ⟨rfl, hf⟩ := injected_iff.mp he
  exact herr t hrel hf

/-- A statement in a transaction. The fault of the environment is the error
`connectionFailure`, any other error comes from the statement. -/
theorem wp_clientQuery {q : Sql} {Q : Except JsError q.Rows → ServiceView → Prop}
    (hok : ∀ t env rows ans, I.rel ws time t →
      q.exec start env (writeAll t.now ws) = .ok (rows, ans) →
      Q (.ok ans) ⟨t, some (seen.getD t), .active start (ws ++ rows)⟩)
    (herr : ∀ t env e, I.rel ws time t → q.exec start env (writeAll t.now ws) = .error e →
      Q (.error (.pg e)) ⟨t, some (seen.getD t), .failed⟩)
    (hfault : ∀ t, I.rel ws time t → Faulty adm →
      Q (.error (.pg .connectionFailure)) ⟨t, some (seen.getD t), .failed⟩) :
    Await.wp (postgres.rely I adm guar) (clientQuery q) ⟨time, seen, .active start ws⟩ Q := by
  refine rely_client ?_ ?_
  · intro t env rows ans hrel _ hx
    exact hok t env rows ans hrel (postgres_exec_ok hx)
  · rintro t e hrel (he | ⟨env, -, hx⟩)
    · obtain ⟨rfl, hf⟩ := injected_iff.mp he
      exact hfault t hrel hf
    · obtain ⟨pe, rfl, hpe⟩ := postgres_exec_error hx
      exact herr t env pe hrel hpe

/-- `SET buyer_signature` in a transaction: a new version of the row, if the row is
there. -/
theorem wp_updateSignature {id : Uuid} {signature : String}
    {Q : Except JsError (List Invoice) → ServiceView → Prop}
    (hok : ∀ t ans, I.rel ws time t →
      Q (.ok ans) ⟨t, some (seen.getD t), .active start (ws ++
        (updateRow .invoice (fun r => r.sign signature start.now)
          ((writeAll t.now ws).invoice id)).1)⟩)
    (hfault : ∀ t, I.rel ws time t → Faulty adm →
      Q (.error (.pg .connectionFailure)) ⟨t, some (seen.getD t), .failed⟩) :
    Await.wp (postgres.rely I adm guar) (clientQuery (.updateInvoiceSignature id signature))
      ⟨time, seen, .active start ws⟩ Q := by
  refine wp_clientQuery ?_ ?_ hfault
  · intro t env rows ans hrel hx
    have he : updateRow .invoice (fun r => r.sign signature start.now)
        ((writeAll t.now ws).invoice id) = (rows, ans) := Except.ok.inj hx
    simpa only [he] using hok t ans hrel
  · intro t env e hrel hx
    cases hx

/-- `SET status` in a transaction: a new version of the row, if the row is there. -/
theorem wp_setStatus {id : Uuid} {status : InvoiceStatus}
    {Q : Except JsError (List Invoice) → ServiceView → Prop}
    (hok : ∀ t, I.rel ws time t →
      Q (.ok (updateRow .invoice (fun r => r.setStatus status start.now)
          ((writeAll t.now ws).invoice id)).2)
        ⟨t, some (seen.getD t), .active start (ws ++
          (updateRow .invoice (fun r => r.setStatus status start.now)
            ((writeAll t.now ws).invoice id)).1)⟩)
    (hfault : ∀ t, I.rel ws time t → Faulty adm →
      Q (.error (.pg .connectionFailure)) ⟨t, some (seen.getD t), .failed⟩) :
    Await.wp (postgres.rely I adm guar) (clientQuery (.updateInvoiceStatus id status))
      ⟨time, seen, .active start ws⟩ Q := by
  refine wp_clientQuery ?_ ?_ hfault
  · intro t env rows ans hrel hx
    have he : updateRow .invoice (fun r => r.setStatus status start.now)
        ((writeAll t.now ws).invoice id) = (rows, ans) := Except.ok.inj hx
    simpa only [he] using hok t hrel
  · intro t env e hrel hx
    cases hx

/-- `InvoiceRepository.updateStatus` of a row that is there. -/
theorem wp_updateStatus {id : Uuid} {status : InvoiceStatus}
    {Q : Except JsError Invoice → ServiceView → Prop}
    (hrow : ∀ t, I.rel ws time t → ∃ r, (writeAll t.now ws).invoice id = some r)
    (hok : ∀ t r, I.rel ws time t → (writeAll t.now ws).invoice id = some r →
      Q (.ok (r.setStatus status start.now)) ⟨t, some (seen.getD t),
        .active start (ws ++ [.invoice (r.setStatus status start.now)])⟩)
    (hfault : ∀ t, I.rel ws time t → Faulty adm →
      Q (.error (.pg .connectionFailure)) ⟨t, some (seen.getD t), .failed⟩) :
    Await.wp (postgres.rely I adm guar) (InvoiceRepository.updateStatus id status .client)
      ⟨time, seen, .active start ws⟩ Q := by
  rw [InvoiceRepository.updateStatus, Await.wp_bind]
  refine wp_setStatus ?_ hfault
  intro t hrel
  obtain ⟨r, hr⟩ := hrow t hrel
  rw [hr]
  exact hok t r hrel hr

/-- `EventRepository.append` to an invoice that is there. -/
theorem wp_appendEvent {input : CreateEventInput}
    {Q : Except JsError InvoiceEvent → ServiceView → Prop}
    (hok : ∀ t, I.rel ws time t → ((writeAll t.now ws).invoice input.invoiceId).isSome = true →
      Q (.ok (input.row start)) ⟨t, some (seen.getD t),
        .active start (ws ++ [.invoiceEvent (input.row start)])⟩)
    (hnone : ∀ t e, I.rel ws time t → e.code ≠ "23505" →
      (writeAll t.now ws).invoice input.invoiceId = none →
      Q (.error (.pg e)) ⟨t, some (seen.getD t), .failed⟩)
    (hfault : ∀ t, I.rel ws time t → Faulty adm →
      Q (.error (.pg .connectionFailure)) ⟨t, some (seen.getD t), .failed⟩) :
    Await.wp (postgres.rely I adm guar) (EventRepository.append input .client)
      ⟨time, seen, .active start ws⟩ Q := by
  rw [EventRepository.append, Await.wp_bind]
  refine wp_clientQuery ?_ ?_ hfault
  · intro t env rows ans hrel hx
    obtain ⟨rfl, rfl, hrow⟩ := insertEvent_ok hx
    exact hok t hrel hrow
  · intro t env e hrel hx
    exact hnone t e hrel (insertEvent_error hx).2 (insertEvent_error hx).1

/-- `VanRepository.create` in a transaction. -/
theorem wp_createVan {input : CreateVanInput}
    {Q : Except JsError VirtualAccount → ServiceView → Prop}
    (hok : ∀ t env, I.rel ws time t → 0 < input.expectedAmountCents →
      (writeAll t.now ws).van env.uuid = none →
      (∀ a ∈ (writeAll t.now ws).virtualAccounts, a.accountNumber ≠ input.accountNumber ∧
        a.invoiceId ≠ input.invoiceId) →
      Q (.ok (input.row start env)) ⟨t, some (seen.getD t),
        .active start (ws ++ [.virtualAccount (input.row start env)])⟩)
    (herr : ∀ t e, I.rel ws time t → Q (.error e) ⟨t, some (seen.getD t), .failed⟩) :
    Await.wp (postgres.rely I adm guar) (VanRepository.create input .client)
      ⟨time, seen, .active start ws⟩ Q := by
  rw [VanRepository.create, Await.wp_bind]
  refine wp_clientQuery ?_ ?_ fun t hrel _ => herr t _ hrel
  · intro t env rows ans hrel hx
    obtain ⟨rfl, rfl, hpos, hid, hkeys, -⟩ := insertVan_ok hx
    exact hok t env hrel hpos hid hkeys
  · exact fun t env e hrel _ => herr t _ hrel

/-- `VanRepository.appendLedgerEntry` in a transaction. A used key is the only unique
violation. -/
theorem wp_appendLedgerEntry {input : CreateLedgerEntryInput}
    {Q : Except JsError LedgerEntry → ServiceView → Prop}
    (hok : ∀ t, I.rel ws time t → 0 < input.amountCents →
      (∀ e ∈ (writeAll t.now ws).ledgerEntries, e.idempotencyKey ≠ input.idempotencyKey) →
      Q (.ok (input.row start)) ⟨t, some (seen.getD t),
        .active start (ws ++ [.ledgerEntry (input.row start)])⟩)
    (hused : ∀ t e, I.rel ws time t → e.code = "23505" →
      (∃ e' ∈ (writeAll t.now ws).ledgerEntries, e'.idempotencyKey = input.idempotencyKey) →
      Q (.error (.pg e)) ⟨t, some (seen.getD t), .failed⟩)
    (herr : ∀ t e, I.rel ws time t → e.code ≠ "23505" →
      (¬ (0 < input.amountCents ∧ input.amountCents ≤ maxBigint) ∨
        (writeAll t.now ws).van input.virtualAccountId = none) →
      Q (.error (.pg e)) ⟨t, some (seen.getD t), .failed⟩)
    (hfault : ∀ t, I.rel ws time t → Faulty adm →
      Q (.error (.pg .connectionFailure)) ⟨t, some (seen.getD t), .failed⟩) :
    Await.wp (postgres.rely I adm guar) (VanRepository.appendLedgerEntry input .client)
      ⟨time, seen, .active start ws⟩ Q := by
  rw [VanRepository.appendLedgerEntry, Await.wp_bind]
  refine wp_clientQuery ?_ ?_ hfault
  · intro t env rows ans hrel hx
    obtain ⟨rfl, rfl, hpos, hkeys, -⟩ := insertLedgerEntry_ok hx
    exact hok t hrel hpos hkeys
  · intro t env e hrel hx
    rcases insertLedgerEntry_error hx with ⟨ha, hc⟩ | ⟨hc, hk⟩ | ⟨hv, hc⟩
    · exact herr t e hrel hc (Or.inl ha)
    · exact hused t e hrel hc hk
    · exact herr t e hrel hc (Or.inr hv)

/-- `VanRepository.updateReceivedAmount` of an account that is there. -/
theorem wp_updateReceivedAmount {id : Uuid} {amount : Int}
    {Q : Except JsError VirtualAccount → ServiceView → Prop}
    (hrow : ∀ t, I.rel ws time t → ∃ v, (writeAll t.now ws).van id = some v)
    (hok : ∀ t v, I.rel ws time t → (writeAll t.now ws).van id = some v →
      Q (.ok (v.receive amount)) ⟨t, some (seen.getD t),
        .active start (ws ++ [.virtualAccount (v.receive amount)])⟩)
    (herr : ∀ t v e, I.rel ws time t → e.code ≠ "23505" →
      (writeAll t.now ws).van id = some v →
      ¬ (0 ≤ v.receivedAmountCents + amount ∧ v.receivedAmountCents + amount ≤ maxBigint) →
      Q (.error (.pg e)) ⟨t, some (seen.getD t), .failed⟩)
    (hfault : ∀ t, I.rel ws time t → Faulty adm →
      Q (.error (.pg .connectionFailure)) ⟨t, some (seen.getD t), .failed⟩) :
    Await.wp (postgres.rely I adm guar) (VanRepository.updateReceivedAmount id amount .client)
      ⟨time, seen, .active start ws⟩ Q := by
  rw [VanRepository.updateReceivedAmount, Await.wp_bind]
  refine wp_clientQuery ?_ ?_ hfault
  · intro t env rows ans hrel hx
    rcases updateReceivedAmount_ok hx with ⟨v, hv, rfl, rfl⟩ | ⟨hv, -⟩
    · exact hok t v hrel hv
    · -- No row would be an error of the repository, but the row is there.
      obtain ⟨v, hv'⟩ := hrow t hrel
      rw [hv] at hv'
      cases hv'
  · intro t env e hrel hx
    obtain ⟨hc, v, hv, hr⟩ := updateReceivedAmount_error hx
    exact herr t v e hrel hc hv hr

/-- `VanRepository.settleAccount` of an account that is there. -/
theorem wp_settleAccount {id : Uuid} {Q : Except JsError VirtualAccount → ServiceView → Prop}
    (hrow : ∀ t, I.rel ws time t → ∃ v, (writeAll t.now ws).van id = some v)
    (hok : ∀ t v, I.rel ws time t → (writeAll t.now ws).van id = some v →
      Q (.ok v.settle) ⟨t, some (seen.getD t),
        .active start (ws ++ [.virtualAccount v.settle])⟩)
    (hfault : ∀ t, I.rel ws time t → Faulty adm →
      Q (.error (.pg .connectionFailure)) ⟨t, some (seen.getD t), .failed⟩) :
    Await.wp (postgres.rely I adm guar) (VanRepository.settleAccount id .client)
      ⟨time, seen, .active start ws⟩ Q := by
  rw [VanRepository.settleAccount, Await.wp_bind]
  refine wp_clientQuery ?_ ?_ hfault
  · intro t env rows ans hrel hx
    obtain ⟨v, hv⟩ := hrow t hrel
    have he : updateRow .virtualAccount VirtualAccount.settle
        ((writeAll t.now ws).van id) = (rows, ans) := Except.ok.inj hx
    rw [hv] at he
    cases he
    exact hok t v hrel hv
  · intro t env e hrel hx
    cases hx

end

/-! ### The `try` block of the services -/

section
variable {α : Type} {s : Log}

/-- What the body of `withClient` has to establish: `Q` of its answer, in a closed
transaction, or `Q` of what the handler makes of its error (`f`) and of a failed
`ROLLBACK`. -/
def Closes (adm : Env → Prop) (s : Log) (f : JsError → JsError)
    (Q : Except JsError α → ServiceView → Prop) : Except JsError α → ServiceView → Prop
  | .ok a, v => v.seen = some s ∧ v.tx = .idle ∧ Q (.ok a) ⟨v.time, some s, .idle⟩
  | .error e, v => v.seen = some s ∧ Q (.error (f e)) ⟨v.time, some s, .idle⟩ ∧
    (Faulty adm → Q (.error (.pg .connectionFailure)) ⟨v.time, some s, .idle⟩)

/-- The rule of `withClient`. The postcondition has to survive what the others commit. -/
theorem wp_withClient {body : Async α} {handler : JsError → Async α}
    {f : JsError → JsError} {Q : Except JsError α → ServiceView → Prop}
    (hhandler : ∀ e, handler e = throw (f e))
    (hlater : ∀ r t t', I.rel [] t t' → Q r ⟨t, some s, .idle⟩ → Q r ⟨t', some s, .idle⟩)
    (hfault : Faulty adm → Q (.error (.pg .connectionFailure)) ⟨time, some s, .idle⟩)
    (hbody : ∀ t, I.rel [] time t → Await.wp (postgres.rely I adm guar) body
      ⟨t, some s, .idle⟩ (Closes adm s f Q)) :
    Await.wp (postgres.rely I adm guar) (withClient body handler) ⟨time, some s, .idle⟩ Q := by
  rw [withClient, Await.wp_bind]
  refine wp_connect (fun t hrel => ?_) fun t hrel hf => hlater _ _ _ hrel (hfault hf)
  simp only [Await.wp_tryFinally]
  refine Await.wp_mono Engine.rely_mono (hbody t hrel) fun r v hr => ?_
  obtain ⟨time', seen', tx'⟩ := v
  cases r with
  | ok a =>
      -- `finally` alone.
      obtain ⟨rfl, rfl, hQ⟩ := hr
      exact wp_release fun t' hrel' => hlater _ _ _ hrel' hQ
  | error e =>
      -- `catch`: the `ROLLBACK` and the handler, whose error is lost when the `ROLLBACK` fails.
      obtain ⟨rfl, hQ, hQ'⟩ := hr
      simp only [Await.wp_bind]
      refine rely_rollback (fun t' hrel' => ?_) fun t' e' hrel' he' => ?_
      · have hrel' := I.weaken hrel'
        simp only [hhandler, Await.wp_throw]
        exact wp_release fun t'' hrel'' => hlater _ _ _ (I.trans hrel' hrel'') hQ
      · have hrel' := I.weaken hrel'
        obtain ⟨rfl, hf⟩ := injected_iff.mp he'
        exact wp_release fun t'' hrel'' => hlater _ _ _ (I.trans hrel' hrel'') (hQ' hf)

end

end

end Vanguard
