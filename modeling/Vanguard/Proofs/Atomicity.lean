import Vanguard.Library.Alone
import Vanguard.Proofs.Runs

/-!
# `Vanguard.Proofs.Atomicity`: the calls at every point where they can fail

`Call.alone` is a call that runs alone, its commands in given environments, each of which can
fail. The triples of the section "The calls" follow each call from its first read to the
release of its connection. From them follow

* `failure_atomic`: an approval or a payment that throws has changed nothing, unless a command
  after its `COMMIT` has failed. A job that cannot be queued is such a command, and
  `approved_without_notification` an approval that it leaves behind;
* `promise_of_resolved`: the other calls of one transaction change nothing, or exactly the rows
  of `Promise`.
-/

set_option autoImplicit false

namespace Vanguard

open ReadCommitted Database

/-- A call with nobody else on the database: its result, and the state it leaves. -/
def Call.alone (c : Call) (envs : Nat → Env) (t : Log) :
    Except JsError Reply × Alone Database RowVersion Env :=
  postgres.finish c.body.run ⟨envs, t, .idle, .uncommitted⟩

/-! ### The statements -/

/-- A triple of the services. -/
abbrev ServiceTriple {α : Type} (P : Alone Database RowVersion Env → Prop) (p : Async α)
    (Q X : Alone Database RowVersion Env → Prop) : Prop :=
  Await.Triple postgres.alone P p Q X

section
variable {α β : Type} {P Q R X : Alone Database RowVersion Env → Prop}

/-- A sequence of service functions, with the condition between them. -/
theorem triple_bind {p : Async α} {f : α → Async β} (hp : ServiceTriple P p R X)
    (hf : ∀ a, ServiceTriple R (f a) Q X) : ServiceTriple P (p >>= f) Q X :=
  hp.bind Engine.alone_mono hf

/-- A result that is only wrapped changes nothing. -/
theorem triple_map {p : Async α} (f : α → β) (hp : ServiceTriple P p Q X) :
    ServiceTriple P (do let a ← p; pure (f a)) Q X :=
  triple_bind hp fun _ => .pure _ fun _ h => h

/-- Until the commit a failure leaves nothing, so it is not to blame either. -/
theorem triple_before {p : Async α} {f : α → Async β} (hp : ServiceTriple P p R Alone.Unsaved)
    (hf : ∀ a, ServiceTriple R (f a) Q Alone.Blamed) :
    ServiceTriple P (p >>= f) Q Alone.Blamed :=
  triple_bind (hp.weaken Engine.alone_mono fun _ h => h.blamed) hf

/-- Taking the first row, where a missing one is a failure. -/
theorem triple_firstRow {rows : List α} (h : ∀ s, P s → X s) :
    ServiceTriple P (firstRow rows) P X := by
  cases rows with
  | nil => exact .throw _ h
  | cons r rows => exact .pure r fun _ hs => hs

/-- Taking the first row or failing with a message. -/
theorem triple_firstRowOr {message : String} {rows : List α} (h : ∀ s, P s → X s) :
    ServiceTriple P (firstRowOr message rows) P X := by
  cases rows with
  | nil => exact .throw _ h
  | cons r rows => exact .pure r fun _ hs => hs

/-- A statement that succeeds without rows to write only reads. -/
theorem reads_select {q : Sql} {f : Database → q.Rows}
    (h : ∀ env db, q.exec env env db = .ok ([], f db)) : postgres.Reads q := by
  intro env db r hr
  have hx := postgres_exec_ok hr
  rw [h] at hx
  cases hx
  rfl

/-- A `SELECT` before the transaction. -/
theorem triple_read {q : Sql} (h : postgres.Reads q) :
    ServiceTriple Alone.Idle (poolQuery q) Alone.Idle Alone.Unsaved :=
  Engine.triple_idle fun s _ => Engine.silent_pool h s

/-- A `SELECT` after the transaction. -/
theorem triple_readAfter {q : Sql} (h : postgres.Reads q) :
    ServiceTriple Alone.Closed (poolQuery q) Alone.Closed Alone.Blamed :=
  Engine.triple_closed fun s _ => Engine.silent_pool h s

/-- A SELECT on the client, after the transaction. -/
theorem triple_clientAfter {q : Sql} (h : postgres.Reads q) :
    ServiceTriple Alone.Closed (clientQuery q) Alone.Closed Alone.Blamed :=
  Engine.triple_closed fun _ hs => Engine.silent_client h hs.2

/-- A job queued after the transaction: if it fails, it fails after the commit. -/
theorem triple_queueAdd (job : Job) :
    ServiceTriple Alone.Closed (queueAdd job) Alone.Closed Alone.Blamed :=
  Engine.triple_closed fun s _ => Engine.silent_ext (Ext.queueAdd job) s

/-- A repository method on the client, in a transaction. -/
theorem triple_write {q : Sql} {f : q.Rows → Async α}
    (hf : ∀ rows, ServiceTriple Alone.Working (f rows) Alone.Working Alone.Unsaved) :
    ServiceTriple Alone.Working (clientQuery q >>= f) Alone.Working Alone.Unsaved :=
  triple_bind (Engine.triple_client q) hf

/-- The update of the status inside the transaction. -/
theorem triple_updateStatus (id : Uuid) (status : InvoiceStatus) :
    ServiceTriple Alone.Working (InvoiceRepository.updateStatus id status .client) Alone.Working
      Alone.Unsaved :=
  triple_write fun _ => triple_firstRowOr fun _ hs => hs.1

/-- The INSERT of an event inside the transaction. -/
theorem triple_append (input : CreateEventInput) :
    ServiceTriple Alone.Working (EventRepository.append input .client) Alone.Working
      Alone.Unsaved :=
  triple_write fun _ => triple_firstRow fun _ hs => hs.1

/-- The clock and the random digits leave a program in its stage. -/
theorem triple_ext {e : Ext} (he : ∀ env, isError (e.run env) = false)
    (hP : ∀ s s' : Alone Database RowVersion Env, s'.progress = s.progress → s'.tx = s.tx →
      P s → P s') :
    ServiceTriple P (Await.await (.ext e : Cmd)) P X := by
  refine Engine.triple_await (fun s hs hok => ?_) fun s _ herr => ?_
  · refine hP s _ ?_ rfl hs
    show Progress.next ([] : List RowVersion) (isError (e.run (s.envs 0))) s.progress = s.progress
    rw [he]
    cases s.progress <;> rfl
  · have := he (s.envs 0)
    rw [show isError (e.run (s.envs 0)) = true from herr] at this
    cases this

/-- Reading the clock keeps every condition on progress and transaction. -/
theorem triple_newDate (hP : ∀ s s' : Alone Database RowVersion Env, s'.progress = s.progress →
    s'.tx = s.tx → P s → P s') : ServiceTriple P newDate P X :=
  triple_ext (fun _ => rfl) hP

/-- Being before the transaction is such a condition. -/
theorem idle_stage (s s' : Alone Database RowVersion Env) (hp : s'.progress = s.progress)
    (ht : s'.tx = s.tx) (h : s.Idle) : s'.Idle :=
  ⟨hp.trans h.1, ht.trans h.2⟩

/-- Being inside the transaction is such a condition. -/
theorem working_stage (s s' : Alone Database RowVersion Env) (hp : s'.progress = s.progress)
    (ht : s'.tx = s.tx) (h : s.Working) : s'.Working :=
  ⟨hp.trans h.1, ht ▸ h.2⟩

/-- Being after the transaction is such a condition. -/
theorem closed_stage (s s' : Alone Database RowVersion Env) (hp : s'.progress = s.progress)
    (ht : s'.tx = s.tx) (h : s.Closed) : s'.Closed :=
  ⟨hp ▸ h.1, ht.trans h.2⟩

/-- The check of a transition fails with nothing committed. -/
theorem triple_assertValidTransition (current next : InvoiceStatus) :
    ServiceTriple Alone.Idle (assertValidTransition current next) Alone.Idle Alone.Unsaved := by
  unfold assertValidTransition
  split
  · exact .pure () fun _ h => h
  · exact .throw _ fun _ h => h.1

/-- `withClient` is as good as its body. -/
theorem triple_withClient {body : Async α} {handler : JsError → Async α}
    (hX : X = Alone.Unsaved ∨ X = Alone.Blamed)
    (hbody : ServiceTriple Alone.Idle body Alone.Closed X)
    (hhandler : ∀ e, ∃ e', handler e = throw e') :
    ServiceTriple Alone.Idle (withClient body handler) Alone.Closed X := by
  have hunsaved : ∀ s : Alone Database RowVersion Env, s.Unsaved → X s := by
    rcases hX with rfl | rfl
    · exact fun _ h => h
    · exact fun _ h => h.blamed
  -- The two last commands commit nothing, and `release` never fails.
  have hkeep : ∀ c (s : Alone Database RowVersion Env), (postgres.outcome c s).publish = [] →
      X s → X (postgres.advance c s) := by
    rcases hX with rfl | rfl
    · exact fun c s hb hs => Engine.unsaved_advance hb hs
    · exact fun c s hb hs => Engine.blamed_advance hb hs
  refine triple_bind (R := Alone.Idle) ?_ fun _ => ?_
  · exact (Engine.triple_idle fun s _ => Engine.silent_ext Ext.connect s).weaken Engine.alone_mono
      hunsaved
  refine hbody.tryFinally Engine.alone_mono (fun e => ?_) ?_
  · obtain ⟨e', he'⟩ := hhandler e
    rw [he']
    refine triple_bind (R := X) ?_ fun _ => .throw _ fun _ h => h
    exact Engine.triple_await (fun s hs _ => hkeep _ s (Engine.publish_rollback s) hs)
      fun s hs _ => hkeep _ s (Engine.publish_rollback s) hs
  · rintro T (rfl | rfl)
    · exact Engine.triple_await
        (fun s hs hok => Engine.closed_advance (Engine.silent_ext Ext.release s) hok hs)
        fun _ _ herr => nomatch herr
    · exact Engine.triple_await (fun s hs _ => hkeep _ s rfl hs) fun _ _ herr => nomatch herr

end

/-! ### The calls -/

/-- The lookup of an invoice only reads. -/
theorem reads_invoiceById (id : Uuid) : postgres.Reads (.selectInvoiceById id) :=
  reads_select fun _ _ => rfl

/-- A financing request commits as its last command: if it throws, it has committed
nothing. -/
theorem triple_requestFinancing (cmd : RequestFinancingCommand) (actorId : Uuid) :
    ServiceTriple Alone.Idle (InvoiceService.requestFinancing cmd actorId) Alone.Closed
      Alone.Unsaved := by
  rw [InvoiceService.requestFinancing]
  refine triple_bind (triple_map _ (triple_read (reads_invoiceById _))) fun found => ?_
  cases found with
  | none => exact .throw _ fun _ h => h.1
  | some invoice =>
      dsimp only
      split
      · exact .throw _ fun _ h => h.1
      · refine triple_bind (triple_assertValidTransition _ _) fun _ => ?_
        -- The transaction: the status, the event and `COMMIT`, the last command of the call.
        refine triple_withClient (Or.inl rfl) ?_ fun e => ⟨e, rfl⟩
        refine triple_bind Engine.triple_begin fun _ => ?_
        refine triple_bind (triple_updateStatus _ _) fun _ => ?_
        refine triple_bind (triple_newDate working_stage) fun _ => ?_
        refine triple_bind (triple_append _) fun _ => ?_
        exact triple_bind Engine.triple_commit fun _ => .pure _ fun _ h => h

/-- An assessment commits as its last command: if it throws, it has committed
nothing. -/
theorem triple_assessAndRecord (cmd : AssessInvoiceRiskCommand) (actorId : Uuid) :
    ServiceTriple Alone.Idle (RiskService.assessAndRecord cmd actorId) Alone.Closed
      Alone.Unsaved := by
  rw [RiskService.assessAndRecord]
  refine triple_bind (triple_map _ (triple_read (reads_invoiceById _))) fun found => ?_
  cases found with
  | none => exact .throw _ fun _ h => h.1
  | some invoice =>
      dsimp only
      split
      · exact .throw _ fun _ h => h.1
      · refine triple_bind (triple_newDate idle_stage) fun assessedAt => ?_
        refine triple_withClient (Or.inl rfl) ?_ fun e => ⟨e, rfl⟩
        refine triple_bind Engine.triple_begin fun _ => ?_
        refine triple_bind (triple_append _) fun _ => ?_
        -- Only a rejection writes the invoice.
        split
        · refine triple_bind (triple_updateStatus _ _) fun _ => ?_
          exact triple_bind Engine.triple_commit fun _ => .pure _ fun _ h => h
        · exact triple_bind Engine.triple_commit fun _ => .pure _ fun _ h => h

/-- Opening an account commits as its last command: if it throws, it has committed
nothing. -/
theorem triple_createVan (cmd : CreateVanCommand) :
    ServiceTriple Alone.Idle (VanService.createVan cmd) Alone.Closed Alone.Unsaved := by
  rw [VanService.createVan]
  refine triple_bind (triple_map _ (triple_read (reads_invoiceById _))) fun found => ?_
  cases found with
  | none => exact .throw _ fun _ h => h.1
  | some invoice =>
      dsimp only
      split
      · exact .throw _ fun _ h => h.1
      refine triple_bind (triple_map _ (triple_read (reads_select fun _ _ => rfl)))
        fun existing => ?_
      split
      · exact .throw _ fun _ h => h.1
      -- The account number takes the clock and random digits, which never fail.
      refine triple_bind (R := Alone.Idle) ?_ fun accountNumber => ?_
      · refine triple_bind (triple_newDate idle_stage) fun _ => ?_
        exact triple_map _ (triple_ext (fun _ => rfl) idle_stage)
      refine triple_bind (triple_newDate idle_stage) fun now => ?_
      refine triple_withClient (Or.inl rfl) ?_ fun e => ⟨e, rfl⟩
      refine triple_bind Engine.triple_begin fun _ => ?_
      -- The account, its advance and its event.
      refine triple_bind (triple_write fun _ => triple_firstRow fun _ hs => hs.1) fun van => ?_
      refine triple_bind (triple_write fun _ => triple_firstRow fun _ hs => hs.1) fun _ => ?_
      refine triple_bind (triple_append _) fun _ => ?_
      exact triple_bind Engine.triple_commit fun _ => .pure _ fun _ h => h

/-- An approval queues a job after its commit: it may throw before the commit or after
it. -/
theorem triple_approveInvoice (cmd : ApproveInvoiceCommand) (actorId : Uuid) :
    ServiceTriple Alone.Idle (InvoiceService.approveInvoice cmd actorId) Alone.Closed
      Alone.Blamed := by
  rw [InvoiceService.approveInvoice]
  refine triple_before (triple_map _ (triple_read (reads_invoiceById _))) fun found => ?_
  cases found with
  | none => exact .throw _ fun _ h => h.blamed
  | some invoice =>
      dsimp only
      split
      · exact .throw _ fun _ h => h.blamed
      refine triple_before (triple_assertValidTransition _ _) fun _ => ?_
      split
      · exact .throw _ fun _ h => h.blamed
      refine triple_withClient (Or.inr rfl) ?_ fun e => ⟨e, rfl⟩
      refine triple_before Engine.triple_begin fun _ => ?_
      -- The signature is written with no look at the rows that it has hit.
      refine triple_before (Engine.triple_client _) fun _ => ?_
      refine triple_before (triple_updateStatus _ _) fun approved => ?_
      refine triple_bind (triple_newDate working_stage) fun _ => ?_
      refine triple_before (triple_append _) fun _ => ?_
      refine triple_before Engine.triple_commit fun _ => ?_
      -- The notification.
      refine triple_bind (triple_map _ (triple_readAfter (reads_select fun _ _ => rfl)))
        fun _ => ?_
      refine triple_bind (triple_clientAfter (reads_select fun _ _ => rfl)) fun credential => ?_
      split
      · refine triple_bind (triple_newDate closed_stage) fun _ => ?_
        exact triple_map _ (triple_queueAdd _)
      · exact .pure _ fun _ h => h

/-- A settlement commits, reads and queues: it may throw before the commit or after
it. -/
theorem triple_settle (cmd : RecordPaymentCommand) (van updated : VirtualAccount) :
    ServiceTriple Alone.Working (VanService.settle cmd van updated) Alone.Closed
      Alone.Blamed := by
  rw [VanService.settle]
  refine triple_before (triple_write fun _ => triple_firstRowOr fun _ hs => hs.1) fun final => ?_
  refine triple_before (Engine.triple_client _) fun _ => ?_
  refine triple_bind (triple_newDate working_stage) fun _ => ?_
  refine triple_before (triple_append _) fun _ => ?_
  refine triple_before Engine.triple_commit fun _ => ?_
  -- The receipt.
  refine triple_bind (triple_map _ (triple_readAfter (reads_invoiceById _))) fun found => ?_
  cases found with
  | none => exact .pure _ fun _ h => h
  | some invoice =>
      refine triple_bind (triple_newDate closed_stage) fun _ => ?_
      exact triple_map _ (triple_queueAdd _)

/-- The end of `recordPayment`: the second `COMMIT` and the ledger of the answer. -/
theorem triple_reply (vanId : Uuid) (finalVan : VirtualAccount) :
    ServiceTriple Alone.Closed
      (do
        commit
        let ledgerEntries ← VanRepository.getLedgerEntries vanId
        pure ({ virtualAccount := finalVan
                ledgerEntries := ledgerEntries
                isFullySettled := finalVan.status == .settled } : VanWithLedger))
      Alone.Closed Alone.Blamed := by
  refine triple_bind (Engine.triple_closed fun _ hs => Engine.silent_commit hs.2) fun _ => ?_
  exact triple_map _ (triple_readAfter (reads_select fun _ _ => rfl))

/-- A payment may throw before its commit, or after it while it reads the answer and queues
the receipt. -/
theorem triple_recordPayment (cmd : RecordPaymentCommand) :
    ServiceTriple Alone.Idle (VanService.recordPayment cmd) Alone.Closed Alone.Blamed := by
  rw [VanService.recordPayment]
  refine triple_before (triple_map _ (triple_read (reads_select fun _ _ => rfl))) fun found => ?_
  cases found with
  | none => exact .throw _ fun _ h => h.blamed
  | some van =>
      dsimp only
      split
      · exact .throw _ fun _ h => h.blamed
      refine triple_before (triple_read (reads_select fun _ _ => rfl)) fun entries => ?_
      split
      · exact .throw _ fun _ h => h.blamed
      split
      · exact .throw _ fun _ h => h.blamed
      -- The handler turns a used key into `DuplicatePaymentError`, and throws in any case.
      refine triple_withClient (Or.inr rfl) ?_ fun e => ⟨_, onPaymentError_eq cmd e⟩
      refine triple_before Engine.triple_begin fun _ => ?_
      refine triple_before (triple_write fun _ => triple_firstRow fun _ hs => hs.1) fun _ => ?_
      refine triple_before (triple_write fun _ => triple_firstRowOr fun _ hs => hs.1)
        fun updated => ?_
      split
      · exact triple_bind (triple_settle cmd van updated) fun final => triple_reply van.id final
      · -- Nothing to settle: only the second `COMMIT` and the answer are left after this one.
        refine triple_before Engine.triple_commit fun _ => ?_
        exact triple_bind (.pure updated fun _ h => h) fun final => triple_reply van.id final

/-! ### The results -/

/-- The calls that send a job after their `COMMIT`. -/
def Call.enqueues : Call → Bool
  | approveInvoice _ _ | recordPayment _ => true
  | submitInvoice _ _ | requestFinancing _ _ | assessAndRecord _ _ | createVan _ => false

/-- The calls of one transaction that end with its `COMMIT`. -/
def Call.commitsLast : Call → Bool
  | requestFinancing _ _ | assessAndRecord _ _ | createVan _ => true
  | submitInvoice _ _ | approveInvoice _ _ | recordPayment _ => false

/-- The calls that queue a job may throw before their commit or after it. -/
theorem Call.triple_enqueues {c : Call} (hc : c.enqueues = true) :
    ServiceTriple Alone.Idle c.body Alone.Closed Alone.Blamed := by
  cases c with
  | approveInvoice cmd actorId => exact triple_map _ (triple_approveInvoice cmd actorId)
  | recordPayment cmd => exact triple_map _ (triple_recordPayment cmd)
  | _ => cases hc

/-- The calls that commit last throw only with nothing committed. -/
theorem Call.triple_commitsLast {c : Call} (hc : c.commitsLast = true) :
    ServiceTriple Alone.Idle c.body Alone.Closed Alone.Unsaved := by
  cases c with
  | requestFinancing cmd actorId => exact triple_map _ (triple_requestFinancing cmd actorId)
  | assessAndRecord cmd actorId => exact triple_map _ (triple_assessAndRecord cmd actorId)
  | createVan cmd => exact triple_map _ (triple_createVan cmd)
  | _ => cases hc

/-- A submission is neither of the two kinds. -/
theorem Call.ne_submitInvoice {c : Call} (hc : c.enqueues = true ∨ c.commitsLast = true)
    (cmd : SubmitInvoiceCommand) (actorId : Uuid) : c ≠ .submitInvoice cmd actorId := by
  rintro rfl
  rcases hc with hc | hc
  · cases hc
  · cases hc

section
variable {c : Call} {envs : Nat → Env} {t : Log} {e : JsError}

/-- Every other call, run alone, throws and leaves the log, or adds one commit to it. -/
theorem Call.alone_cases (hc : ∀ cmd actorId, c ≠ .submitInvoice cmd actorId)
    (envs : Nat → Env) (t : Log) :
    (∃ e, (c.alone envs t).1 = .error e ∧ (c.alone envs t).2.time = t) ∨
      ∃ rows, Commit Interference.alone t t t c rows ∧
        (c.alone envs t).2.time = t.commit rows := by
  obtain ⟨seen, -, hended⟩ := Engine.finish_of_wp (E := postgres) (fun _ => True)
    (s := ⟨envs, t, .idle, .uncommitted⟩) (fun _ => trivial) (Call.spec Interference.alone _ t c)
  rcases hended.alone hc with ⟨e, he, ht, -⟩ | h
  · exact Or.inl ⟨e, he, ht⟩
  · exact Or.inr h

/-- Where a call throws. -/
theorem Call.alone_error {X : Alone Database RowVersion Env → Prop}
    (h : ServiceTriple Alone.Idle c.body Alone.Closed X) (he : (c.alone envs t).1 = .error e) :
    X (c.alone envs t).2 := by
  have hwp := Engine.wp_alone.mp (h ⟨envs, t, .idle, .uncommitted⟩ ⟨rfl, rfl⟩)
  rw [Call.alone] at he ⊢
  rw [he] at hwp
  exact hwp

/-- A call has committed nothing exactly if the log is the one it began with. -/
theorem Call.progress_alone :
    (c.alone envs t).2.progress = .uncommitted ↔ (c.alone envs t).2.time = t :=
  Engine.progress_finish (s := ⟨envs, t, .idle, .uncommitted⟩) rfl

/-- `approveInvoice` and `recordPayment` that throw have changed nothing, unless a command
after their `COMMIT` has failed. Then all they write is committed. -/
theorem failure_atomic (hc : c.enqueues = true) (he : (c.alone envs t).1 = .error e) :
    ((c.alone envs t).2.progress = .uncommitted ∧ (c.alone envs t).2.time = t) ∨
      ((c.alone envs t).2.progress = .failedAfter ∧
        ∃ rows, Commit Interference.alone t t t c rows ∧
          (c.alone envs t).2.time = t.commit rows) := by
  have hblamed := Call.alone_error (Call.triple_enqueues hc) he
  by_cases hp : (c.alone envs t).2.progress = .uncommitted
  · exact Or.inl ⟨hp, Call.progress_alone.mp hp⟩
  · -- Something is committed, and a call commits one batch: the whole of what it writes.
    refine Or.inr ⟨?_, ?_⟩
    · cases hprogress : (c.alone envs t).2.progress with
      | uncommitted => exact absurd hprogress hp
      | committed => exact absurd hprogress hblamed
      | failedAfter => rfl
    · rcases Call.alone_cases (Call.ne_submitInvoice (Or.inl hc)) envs t with ⟨-, -, ht⟩ | h
      · exact absurd (Call.progress_alone.mpr ht) hp
      · exact h

end

/-- The sample environments, with a failure of the command `n`. -/
def failAt (n : Nat) (i : Nat) : Env := { sampleEnv with fault := i == n }

/-- A result that counts as an error has one in it. -/
theorem exists_error {α : Type} {r : Except JsError α} (h : isError r = true) :
    ∃ e, r = .error e := by
  cases r with
  | ok a => cases h
  | error e => exact ⟨e, rfl⟩

/-- A payment whose `COMMIT` fails. -/
theorem failure_atomic_of_lost_commit :
    let r := (Call.recordPayment (samplePayment 400 "k")).alone (failAt 6)
      (.start (sampleAfter stepsToAccount))
    isError r.1 = true ∧
      ((r.2.progress = .uncommitted ∧ r.2.time = .start (sampleAfter stepsToAccount)) ∨
        (r.2.progress = .failedAfter ∧ ∃ rows,
          Commit Interference.alone (.start (sampleAfter stepsToAccount))
            (.start (sampleAfter stepsToAccount)) (.start (sampleAfter stepsToAccount))
            (.recordPayment (samplePayment 400 "k")) rows ∧
          r.2.time = Timeline.commit (.start (sampleAfter stepsToAccount)) rows)) := by
  have h : isError ((Call.recordPayment (samplePayment 400 "k")).alone (failAt 6)
      (.start (sampleAfter stepsToAccount))).1 = true := by decide +kernel
  obtain ⟨e, he⟩ := exists_error h
  exact ⟨h, failure_atomic rfl he⟩

/-- The submitted sample invoice, whose supplier has an address. -/
def sampleWithEmail : Database :=
  { sampleAfter stepsToSubmitted with credentials := Table.empty.put ⟨sampleSupplier, "s@vse"⟩ }

/-- An approval whose notification cannot be queued throws, and the invoice is approved. -/
theorem approved_without_notification :
    ((sampleApprove.alone (failAt 11) (.start sampleWithEmail)).1 = .error .redis) ∧
      sampleWithEmail.statusOf sampleId = some .submitted ∧
      (sampleApprove.alone (failAt 11) (.start sampleWithEmail)).2.time.now.statusOf sampleId =
        some .buyerApproved := by
  exact ⟨rfl, by decide +kernel, by decide +kernel⟩

/-- What a call that ends with its `COMMIT` promises of the tables: the rows that it adds, and
the row that it changes. -/
inductive Promise (db : Database) : Call → Database → Prop where
  | requested {cmd : RequestFinancingCommand} {actorId : Uuid} (r : Invoice)
      (requestedAt now : Timestamp) (hrow : db.invoice cmd.invoiceId = some r) :
      Promise db (.requestFinancing cmd actorId)
        { db with
            invoices := db.invoices.put (r.setStatus .financingRequested now)
            invoiceEvents := db.invoiceEvents ++
              [requestedEvent cmd actorId r.amountCents requestedAt now] }
  | assessed {cmd : AssessInvoiceRiskCommand} {actorId : Uuid} (r : Invoice)
      (assessedAt now : Timestamp) (hrow : db.invoice cmd.invoiceId = some r) :
      Promise db (.assessAndRecord cmd actorId)
        { db with
            invoices :=
              if (assessInvoiceRisk cmd assessedAt).decision = .reject then
                db.invoices.put (r.setStatus .cancelled now)
              else db.invoices
            invoiceEvents := db.invoiceEvents ++
              [assessmentEvent cmd actorId assessedAt now] }
  | created {cmd : CreateVanCommand} (inv : Invoice) (van : VirtualAccount) (start : Env)
      (hrow : db.invoice cmd.invoiceId = some inv) (hnew : db.van van.id = none)
      (hinvoice : van.invoiceId = cmd.invoiceId)
      (hexpected : van.expectedAmountCents = cmd.expectedAmountCents)
      (hreceived : van.receivedAmountCents = 0) (hactive : van.status = .active) :
      Promise db (.createVan cmd)
        { db with
            virtualAccounts := db.virtualAccounts.put van
            ledgerEntries := db.ledgerEntries ++
              [(cmd.debit inv.invoiceNumber van.id).row start]
            invoiceEvents := db.invoiceEvents ++ [vanCreatedEvent van start.now] }

/-- A commit of a call that runs alone is what the call promises. -/
theorem Commit.promise {t : Log} {c : Call} {rows : List RowVersion}
    (h : Commit Interference.alone t t t c rows) (hc : c.commitsLast = true) :
    Promise t.now c (t.commit rows).now := by
  cases h with
  | requested inv r requestedAt now _ _ hinv _ _ hrow =>
      obtain rfl : inv = r := Option.some.inj (hinv.symm.trans hrow)
      exact .requested inv requestedAt now hrow
  | @assessed cmd actorId inv assessedAt now _ _ hinv _ hdecision =>
      have := @Promise.assessed t.now cmd actorId inv assessedAt now hinv
      rwa [if_neg hdecision] at this
  | @rejected cmd actorId inv r assessedAt now _ _ hinv _ hdecision hrow =>
      obtain rfl : inv = r := Option.some.inj (hinv.symm.trans hrow)
      have := @Promise.assessed t.now cmd actorId inv assessedAt now hrow
      rwa [if_pos hdecision] at this
  | created inv van start _ _ hinv _ hinvoice hexpected hreceived hactive _ hid =>
      exact .created inv van start hinv hid hinvoice hexpected hreceived hactive
  | draft | submitted | approved | paid | settled => cases hc

/-- `createVan`, `requestFinancing` and `assessAndRecord` that throw have changed nothing. When
they resolve they have committed what they promise, in one batch. -/
theorem promise_of_resolved {c : Call} (hc : c.commitsLast = true) (envs : Nat → Env) (t : Log) :
    (∀ e, (c.alone envs t).1 = .error e → (c.alone envs t).2.time = t) ∧
      ∀ reply, (c.alone envs t).1 = .ok reply → ∃ rows,
        (c.alone envs t).2.time = t.commit rows ∧ Promise t.now c (t.commit rows).now := by
  constructor
  · intro e he
    exact Call.progress_alone.mp (Call.alone_error (Call.triple_commitsLast hc) he)
  · intro reply hreply
    rcases Call.alone_cases (Call.ne_submitInvoice (Or.inr hc)) envs t with
      ⟨e, he, -⟩ | ⟨rows, hcommit, ht⟩
    · rw [he] at hreply
      cases hreply
    · exact ⟨rows, ht, hcommit.promise hc⟩

/-- The account of the sample invoice. -/
theorem promise_of_created_account : ∃ rows,
    (sampleCreateVan.alone (fun _ => sampleEnv) (.start (sampleAfter stepsToRequested))).2.time =
      Timeline.commit (.start (sampleAfter stepsToRequested)) rows ∧
    Promise (sampleAfter stepsToRequested) sampleCreateVan
      (Timeline.commit (.start (sampleAfter stepsToRequested)) rows).now := by
  have h : isError (sampleCreateVan.alone (fun _ => sampleEnv)
      (.start (sampleAfter stepsToRequested))).1 = false := by decide +kernel
  cases hr : (sampleCreateVan.alone (fun _ => sampleEnv)
      (.start (sampleAfter stepsToRequested))).1 with
  | error e =>
      rw [hr] at h
      cases h
  | ok reply => exact (promise_of_resolved rfl _ _).2 reply hr

end Vanguard
