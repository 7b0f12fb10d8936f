import Vanguard.Proofs.Atomicity

/-!
# `Vanguard.Proofs.Submission`: `submitInvoice` and its draft

`SubmitAtomic` is what the transaction of `submitInvoice` is for: a submission that throws has
changed nothing, one that resolves commits the submitted row and its event together, and no
moment of the log shows the draft. The `INSERT` of `save` runs on the pool, so the draft is
committed at once. `submitAtomic_iff` says that the law holds exactly for the submissions that
end before this `INSERT` succeeds.
-/

set_option autoImplicit false

namespace Vanguard

open ReadCommitted Database

/-! ### The law -/

/-- A submission alone is all or nothing, and its draft is never seen. -/
structure SubmitAtomic (cmd : SubmitInvoiceCommand) (actorId : Uuid) (envs : Nat → Env)
    (t : Log) : Prop where
  rejects : ∀ e, ((Call.submitInvoice cmd actorId).alone envs t).1 = .error e →
    ((Call.submitInvoice cmd actorId).alone envs t).2.time = t
  resolves : ∀ reply, ((Call.submitInvoice cmd actorId).alone envs t).1 = .ok reply →
    ∃ r now, t.now.invoice r.id = none ∧ r.status = .submitted ∧
      ((Call.submitInvoice cmd actorId).alone envs t).2.time =
        t.commit [.invoice r, .invoiceEvent (submittedEvent actorId r now)]
  hidden : ∀ u, t ≤ u → u ≤ ((Call.submitInvoice cmd actorId).alone envs t).2.time →
    ∀ r ∈ u.now.invoices, t.now.invoice r.id = none → r.status ≠ .draft

/-- The row of the submission, with this id, satisfies the constraints of `invoices`. -/
structure SubmitInvoiceCommand.Fits (cmd : SubmitInvoiceCommand) (id : Uuid) (db : Database) :
    Prop where
  amount : 0 < cmd.amountCents ∧ cmd.amountCents ≤ maxBigint
  parties : cmd.buyerId ≠ cmd.supplierId
  id : db.invoice id = none
  number : ∀ r ∈ db.invoices, r.invoiceNumber ≠ cmd.invoiceNumber
  supplier : (db.organisations.get? cmd.supplierId).isSome = true
  buyer : (db.organisations.get? cmd.buyerId).isSome = true

/-- The submission reaches its `INSERT`, which succeeds. The environments 0 to 4 are the ones of
the clock, the search for the number, the connection, `BEGIN` and the `INSERT`. -/
structure SubmitInvoiceCommand.Inserts (cmd : SubmitInvoiceCommand) (envs : Nat → Env)
    (db : Database) : Prop where
  dueDate : (envs 0).now < cmd.dueDate
  faults : ∀ n, 1 ≤ n → n ≤ 4 → (envs n).fault = false
  fits : cmd.Fits (envs 4).uuid db

/-! ### Statements of a program alone -/

section
variable {q : Sql} {env : Env} {db : Database} {tx : Tx Env RowVersion}

/-- A statement on the pool that fails to connect. -/
theorem autocommit_fault (h : env.fault = true) :
    postgres.autocommit q env db tx = ⟨[], tx, .error (.pg .connectionFailure)⟩ := by
  simp [Engine.autocommit, postgres, h]

/-- A statement on the pool that the database refuses. -/
theorem autocommit_error (h : env.fault = false) {e : PgError}
    (hx : q.exec env env db = .error e) :
    postgres.autocommit q env db tx = ⟨[], tx, .error (.pg e)⟩ := by
  simp [Engine.autocommit, postgres, h, hx, Except.mapError]

/-- A statement on the pool that succeeds commits at once. -/
theorem autocommit_ok (h : env.fault = false) {rows : List RowVersion} {ans : q.Rows}
    (hx : q.exec env env db = .ok (rows, ans)) :
    postgres.autocommit q env db tx = ⟨rows, tx, .ok ans⟩ := by
  simp [Engine.autocommit, postgres, h, hx, Except.mapError]

end

section
variable {envs : Nat → Env} {t : Log} {tx : Tx Env RowVersion}

/-- `new Date()` takes the time of its environment. -/
theorem alone_newDate {Q : Except JsError Timestamp → Alone Database RowVersion Env → Prop} :
    Await.wp postgres.alone newDate ⟨envs, t, tx, .uncommitted⟩ Q ↔
      Q (.ok (envs 0).now) ⟨fun n => envs (n + 1), t, tx, .uncommitted⟩ :=
  Iff.rfl

/-- A statement on the pool whose outcome is known. -/
theorem alone_pool {q : Sql} {o : Outcome Env RowVersion JsError q.Rows}
    (h : postgres.autocommit q (envs 0) t.now tx = o)
    {Q : Except JsError q.Rows → Alone Database RowVersion Env → Prop}
    (hQ : Q o.answer ⟨fun n => envs (n + 1), t.publish o.publish, o.tx,
      Progress.uncommitted.next o.publish (isError o.answer)⟩) :
    Await.wp postgres.alone (poolQuery q) ⟨envs, t, tx, .uncommitted⟩ Q :=
  Engine.wp_await_of (E := postgres) (c := .pool q) (s := ⟨envs, t, tx, .uncommitted⟩) h hQ

/-- `BEGIN`, with and without a fault. -/
theorem alone_begin {Q : Except JsError Unit → Alone Database RowVersion Env → Prop}
    (hok : (envs 0).fault = false →
      Q (.ok ()) ⟨fun n => envs (n + 1), t, .active (envs 0) [], .uncommitted⟩)
    (herr : (envs 0).fault = true → Q (.error (.pg .connectionFailure))
      ⟨fun n => envs (n + 1), t, .idle, .uncommitted⟩) :
    Await.wp postgres.alone begin ⟨envs, t, .idle, .uncommitted⟩ Q := by
  cases hf : (envs 0).fault with
  | true =>
      refine Engine.wp_await_of (c := .begin) (o := ⟨[], .idle, .error (.pg .connectionFailure)⟩)
        ?_ (herr hf)
      simp [Engine.outcome, Engine.step, postgres, hf]
  | false =>
      refine Engine.wp_await_of (c := .begin) (o := ⟨[], .active (envs 0) [], .ok ()⟩) ?_ (hok hf)
      simp [Engine.outcome, Engine.step, postgres, hf]

/-- `pool.connect()`, with and without a fault. -/
theorem alone_connect {Q : Except JsError Unit → Alone Database RowVersion Env → Prop}
    (hok : (envs 0).fault = false →
      Q (.ok ()) ⟨fun n => envs (n + 1), t, tx, .uncommitted⟩)
    (herr : (envs 0).fault = true → Q (.error (.pg .connectionFailure))
      ⟨fun n => envs (n + 1), t, tx, .uncommitted⟩) :
    Await.wp postgres.alone connect ⟨envs, t, tx, .uncommitted⟩ Q := by
  have hrun : ∀ r : Except JsError Unit, Ext.connect.run (envs 0) = r →
      Q r ⟨fun n => envs (n + 1), t, tx, .uncommitted⟩ →
      Await.wp postgres.alone connect ⟨envs, t, tx, .uncommitted⟩ Q := by
    rintro r rfl hQ
    exact hQ
  cases hf : (envs 0).fault with
  | true => exact hrun _ (if_pos hf) (herr hf)
  | false => exact hrun _ (if_neg (by simp [hf])) (hok hf)

/-- The `ROLLBACK`, the error and the release keep the log. -/
theorem alone_abort {s : Alone Database RowVersion Env} {α : Type} (e : JsError)
    {C : Bool → Log → Prop} (h : C true s.time) :
    Await.wp postgres.alone (do rollback; (throw e : Async α)) s fun r s' =>
      Await.wp postgres.alone release s' fun f s'' =>
        match f with
        | .ok _ => C (isError r) s''.time
        | .error _ => C true s''.time := by
  have htime : (postgres.advance .rollback s).time = s.time := by
    show s.time.publish (postgres.outcome .rollback s).publish = s.time
    rw [Engine.publish_rollback]
    rfl
  rw [Await.wp_bind]
  refine (Engine.wp_await (E := postgres) (c := .rollback) (s := s) _).mpr ?_
  cases (postgres.outcome .rollback s).answer with
  | ok _ =>
      show C true (postgres.advance .rollback s).time
      rw [htime]
      exact h
  | error e' =>
      show C true (postgres.advance .rollback s).time
      rw [htime]
      exact h

/-- `withClient` for a postcondition of the way out and the log. -/
theorem alone_withClient {α : Type} {body : Async α} {C : Bool → Log → Prop}
    (hfail : (envs 0).fault = true → C true t)
    (hbody : (envs 0).fault = false → Await.wp postgres.alone body
      ⟨fun n => envs (n + 1), t, .idle, .uncommitted⟩ fun r s => C (isError r) s.time) :
    Await.wp postgres.alone (withClient body fun err => throw err)
      ⟨envs, t, .idle, .uncommitted⟩ fun r s => C (isError r) s.time := by
  rw [withClient, Await.wp_bind]
  refine alone_connect (fun hf => ?_) hfail
  simp only [Await.wp_tryFinally]
  refine Await.wp_mono Engine.alone_mono (hbody hf) fun r s hr => ?_
  cases r with
  | ok a => exact hr
  | error e =>
      refine Await.wp_mono Engine.alone_mono (alone_abort e hr) fun r' s' hr' => ?_
      exact Await.wp_mono Engine.alone_mono hr' fun f s'' hf => by cases f <;> exact hf

end

/-! ### The `INSERT` -/

/-- What `save` inserts for a submission. -/
def SubmitInvoiceCommand.input (cmd : SubmitInvoiceCommand) : CreateInvoiceInput :=
  { invoiceNumber := cmd.invoiceNumber
    supplierId := cmd.supplierId
    buyerId := cmd.buyerId
    amountCents := cmd.amountCents
    currency := cmd.currency
    dueDate := cmd.dueDate }

/-- A constraint that holds lets the statement through. -/
theorem require_of {p : Bool} {e : PgError} (h : p = true) : require p e = .ok () :=
  if_pos h

/-- A check that succeeded is passed. -/
theorem check_bind_of_ok {α : Type} {x : Except PgError Unit} {f : Unit → Except PgError α}
    (h : x = .ok ()) : (x >>= f) = f () := by
  rw [h]
  rfl

/-- A submission that fits is inserted as its draft. -/
theorem insertInvoice_of_fits {cmd : SubmitInvoiceCommand} {env : Env} {db : Database}
    (h : cmd.Fits env.uuid db) : (Sql.insertInvoice cmd.input).exec env env db =
      .ok ([.invoice (cmd.draft env)], [cmd.draft env]) := by
  have hamount : positiveBigint "invoices" "invoices_amount_cents_check" cmd.amountCents =
      .ok () := by
    have hpos := h.amount
    rw [positiveBigint, if_neg, if_neg]
    · omega
    · simp only [maxBigint] at hpos ⊢
      omega
  have hnumber : (db.invoices.rows.all fun r => r.invoiceNumber != cmd.invoiceNumber) = true := by
    rw [List.all_eq_true]
    intro r hr
    simpa using h.number r hr
  simp only [Sql.exec, SubmitInvoiceCommand.input]
  rw [check_bind_of_ok hamount, check_bind_of_ok (require_of (by simpa using h.parties)),
    check_bind_of_ok (require_of (by simp [h.id])), check_bind_of_ok (require_of hnumber),
    check_bind_of_ok (require_of h.supplier), check_bind_of_ok (require_of h.buyer)]
  rfl

/-- A submission that is inserted fits. -/
theorem fits_of_insertInvoice {cmd : SubmitInvoiceCommand} {env : Env} {db : Database}
    {r : List RowVersion × List Invoice}
    (h : (Sql.insertInvoice cmd.input).exec env env db = .ok r) : cmd.Fits env.uuid db := by
  simp only [Sql.exec, SubmitInvoiceCommand.input] at h
  obtain ⟨h₁, h⟩ := check_bind_ok h
  obtain ⟨h₂, h⟩ := check_bind_ok h
  obtain ⟨h₃, h⟩ := check_bind_ok h
  obtain ⟨h₄, h⟩ := check_bind_ok h
  obtain ⟨h₅, h⟩ := check_bind_ok h
  obtain ⟨h₆, -⟩ := check_bind_ok h
  constructor
  · exact positiveBigint_ok h₁
  · simpa using require_ok h₂
  · simpa using require_ok h₃
  · intro a ha
    simpa using List.all_eq_true.mp (require_ok h₄) a ha
  · exact require_ok h₅
  · exact require_ok h₆

/-! ### The two ways of a submission -/

section
variable {cmd : SubmitInvoiceCommand} (actorId : Uuid) {envs : Nat → Env} {t : Log}

/-- A submission whose `INSERT` does not succeed throws and changes nothing. -/
theorem submit_refused (h : ¬ cmd.Inserts envs t.now) :
    Await.wp postgres.alone (InvoiceService.submitInvoice cmd actorId)
      ⟨envs, t, .idle, .uncommitted⟩ fun r s => isError r = true ∧ s.time = t := by
  rw [InvoiceService.submitInvoice]
  dsimp only
  -- The amount is not positive.
  split
  · exact ⟨rfl, rfl⟩
  rw [Await.wp_bind]
  refine alone_newDate.mpr ?_
  dsimp only
  -- The due date is not in the future.
  split
  · exact ⟨rfl, rfl⟩
  rename_i hdue
  -- From here on each command fails, or it stands for one more condition of `Inserts`.
  simp only [InvoiceRepository.findByInvoiceNumber, Await.wp_bind, Await.wp_pure]
  cases hlookup : (envs 1).fault with
  | true => exact alone_pool (autocommit_fault hlookup) ⟨rfl, rfl⟩
  | false =>
      refine alone_pool (autocommit_ok hlookup rfl) ?_
      dsimp only
      split
      · exact ⟨rfl, rfl⟩
      refine alone_withClient (C := fun b u => b = true ∧ u = t) (fun _ => ⟨rfl, rfl⟩)
        fun hconnect => ?_
      simp only [Await.wp_bind]
      refine alone_begin (fun hbegin => ?_) fun _ => ⟨rfl, rfl⟩
      simp only [InvoiceRepository.save, Await.wp_bind]
      cases hinsert : (envs 4).fault with
      | true => exact alone_pool (autocommit_fault hinsert) ⟨rfl, rfl⟩
      | false =>
          cases hx : (Sql.insertInvoice cmd.input).exec (envs 4) (envs 4) t.now with
          | error e =>
              refine alone_pool (autocommit_error hinsert hx) ?_
              exact ⟨rfl, rfl⟩
          | ok r =>
              -- The `INSERT` has succeeded, against the hypothesis.
              refine absurd ⟨not_le.mp hdue, ?_, fits_of_insertInvoice hx⟩ h
              intro n hmin hmax
              have hn : n = 1 ∨ n = 2 ∨ n = 3 ∨ n = 4 := by omega
              rcases hn with rfl | rfl | rfl | rfl
              · exact hlookup
              · exact hconnect
              · exact hbegin
              · exact hinsert

/-- A submission whose `INSERT` succeeds leaves its draft in the log. -/
theorem submit_inserted (h : cmd.Inserts envs t.now) :
    Await.wp postgres.alone (InvoiceService.submitInvoice cmd actorId)
      ⟨envs, t, .idle, .uncommitted⟩
      fun _ s => t.commit [.invoice (cmd.draft (envs 4))] ≤ s.time := by
  obtain ⟨hdue, hfaults, hfits⟩ := h
  -- The search for the number finds no invoice.
  have hnumber : (t.now.invoices.rows.find? fun r => r.invoiceNumber == cmd.invoiceNumber) =
      none := by
    rw [List.find?_eq_none]
    intro r hr
    simpa using hfits.number r hr
  rw [InvoiceService.submitInvoice, if_neg (by have := hfits.amount; omega), Await.wp_bind]
  refine alone_newDate.mpr ?_
  dsimp only
  rw [if_neg (not_le.mpr hdue)]
  simp only [InvoiceRepository.findByInvoiceNumber, Await.wp_bind, Await.wp_pure]
  refine alone_pool (autocommit_ok (hfaults 1 (by omega) (by omega)) rfl) ?_
  dsimp only
  rw [hnumber]
  refine alone_withClient (C := fun _ u => t.commit [.invoice (cmd.draft (envs 4))] ≤ u)
    (fun hf => ?_) fun _ => ?_
  · rw [show (envs 2).fault = false from hfaults 2 (by omega) (by omega)] at hf
    cases hf
  rw [Await.wp_bind]
  refine alone_begin (fun _ => ?_) fun hf => ?_
  · dsimp only
    rw [Await.wp_bind, InvoiceRepository.save, Await.wp_bind]
    refine alone_pool (autocommit_ok (hfaults 4 (by omega) (by omega))
      (insertInvoice_of_fits hfits)) ?_
    -- The draft is in the log, and the rest of the program only adds to it.
    exact Engine.wp_le _ _
  · rw [show (envs 3).fault = false from hfaults 3 (by omega) (by omega)] at hf
    cases hf

/-- The way out and the log of a submission alone. -/
theorem alone_submit {C : Bool → Log → Prop}
    (h : Await.wp postgres.alone (InvoiceService.submitInvoice cmd actorId)
      ⟨envs, t, .idle, .uncommitted⟩ fun r s => C (isError r) s.time) :
    C (isError ((Call.submitInvoice cmd actorId).alone envs t).1)
      ((Call.submitInvoice cmd actorId).alone envs t).2.time := by
  have hbody : Await.wp postgres.alone (Call.submitInvoice cmd actorId).body
      ⟨envs, t, .idle, .uncommitted⟩ fun r s => C (isError r) s.time := by
    rw [Call.body, Await.wp_bind]
    refine Await.wp_mono Engine.alone_mono h fun r s hr => ?_
    cases r <;> exact hr
  exact Engine.wp_alone.mp hbody

end

/-- A submission is all or nothing, with a draft that nobody sees, exactly when its `INSERT`
does not succeed. -/
theorem submitAtomic_iff (cmd : SubmitInvoiceCommand) (actorId : Uuid) (envs : Nat → Env)
    (t : Log) : SubmitAtomic cmd actorId envs t ↔ ¬ cmd.Inserts envs t.now := by
  constructor
  · intro hatomic hinserts
    -- The moment after the `INSERT` is a moment of the log, and it shows the draft.
    have hle := alone_submit actorId
      (C := fun _ u => t.commit [.invoice (cmd.draft (envs 4))] ≤ u)
      (submit_inserted actorId hinserts)
    refine hatomic.hidden _ (Timeline.le_commit _ (le_refl _)) hle (cmd.draft (envs 4)) ?_
      hinserts.fits.id rfl
    exact Table.mem_put.mpr (Or.inl rfl)
  · intro hnot
    obtain ⟨herror, htime⟩ := alone_submit actorId (C := fun b u => b = true ∧ u = t)
      (submit_refused actorId hnot)
    constructor
    · exact fun _ _ => htime
    · intro reply hreply
      rw [hreply] at herror
      cases herror
    · intro u htu hu r hr hnone
      rw [htime] at hu
      obtain rfl : t = u := le_antisymm htu hu
      rw [Database.invoice, Table.get?_of_mem hr] at hnone
      cases hnone

/-- A submission whose `COMMIT` fails throws and leaves its draft, and the number is used up. -/
theorem draft_of_failed_submission :
    let r := sampleSubmit.alone (failAt 7) (.start sampleDb)
    r.1 = .error (.pg .connectionFailure) ∧ r.2.time.now.statusOf sampleId = some .draft ∧
      (sampleSubmit.alone (fun _ => sampleEnv) r.2.time).1 =
        .error (.error "Invoice number INV-1 already exists") := by
  exact ⟨rfl, by decide +kernel, rfl⟩

end Vanguard
