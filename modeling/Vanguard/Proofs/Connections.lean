import Vanguard.Library.Pool
import Vanguard.Proofs.Runs

/-!
# `Vanguard.Proofs.Connections`: the calls and the connection pool

The calls of the services as programs that share the pool of `core/database/pool.ts`.
`withClient` holds a connection from `pool.connect()` to `client.release()`. Three calls send
statements to the pool in between: `submitInvoice` inserts the invoice with `save`,
`approveInvoice` looks up the supplier and `recordPayment` the invoice and the ledger after
the `COMMIT`. When such calls hold every connection, each waits for another one
(`submit_deadlocks`). `no_pool_deadlock` is the result for the runs in which no grant of a
client leads there.
-/

set_option autoImplicit false

namespace Vanguard

open ReadCommitted ConnectionPool

/-- What a command does with the pool. The clock, the random digits and the queue do not touch
it. -/
def Cmd.use : Cmd → PoolUse
  | .begin | .commit | .rollback | .client _ => .client
  | .pool _ => .pool
  | .ext .connect => .connect
  | .ext .release => .release
  | .ext .date | .ext .random | .ext (.queueAdd _) => .free

/-- The calls of the services on a pool. -/
abbrev ServicePool :=
  PoolWorld Cmd (Command.Res Sql.Rows Ext.Res) JsError (Except JsError Reply)

/-- A step of the services on a pool. -/
abbrev PoolStep := PoolAction Cmd (Command.Res Sql.Rows Ext.Res) JsError Call

/-- The runs of the services on a pool of `max` connections, with the steps that `ok`
allows. -/
abbrev PoolRuns (max : Nat) (ok : ServicePool → PoolStep → Prop) : ServicePool → Prop :=
  PoolRun Cmd.use max (fun c : Call => c.body.run) ok

/-- What `Keeps` is about: a function of the services that holds a client or does not, before
it and after it. -/
abbrev KeepsClient {α : Type} (held : Bool) (p : Async α) : Prop := Keeps Cmd.use held p

section

variable {α β : Type} {held : Bool}

/-- A sequence keeps the client when both parts do. -/
theorem keeps_bind {p : Async α} {f : α → Async β} (hp : KeepsClient held p)
    (hf : ∀ a, KeepsClient held (f a)) : KeepsClient held (p >>= f) :=
  Keeps.bind hp hf

/-- A return uses no connection. -/
theorem keeps_pure (a : α) : KeepsClient held (pure a : Async α) := Keeps.pure a

/-- A throw uses no connection. -/
theorem keeps_throw (e : JsError) : KeepsClient held (throw e : Async α) := Keeps.throw e

/-- `pool.query(q)`, with a client held or without. -/
theorem keeps_poolQuery (q : Sql) : KeepsClient held (poolQuery q) := Keeps.pool rfl

/-- A statement on the client needs the client, and keeps it. -/
theorem keeps_clientQuery (q : Sql) : KeepsClient true (clientQuery q) := Keeps.client rfl

/-- `BEGIN` runs on the client. -/
theorem keeps_begin : KeepsClient true begin := Keeps.client rfl

/-- `COMMIT` runs on the client. -/
theorem keeps_commit : KeepsClient true commit := Keeps.client rfl

/-- Reading the clock uses no connection. -/
theorem keeps_newDate : KeepsClient held newDate := Keeps.free rfl

/-- Queueing a job uses no connection. -/
theorem keeps_queueAdd (job : Job) : KeepsClient held (queueAdd job) := Keeps.free rfl

/-- Taking the first row uses no connection. -/
theorem keeps_firstRow (rows : List α) : KeepsClient held (firstRow rows) := by
  cases rows with
  | nil => exact keeps_throw _
  | cons r rows => exact keeps_pure r

/-- Taking the first row or failing uses no connection. -/
theorem keeps_firstRowOr (message : String) (rows : List α) :
    KeepsClient held (firstRowOr message rows) := by
  cases rows with
  | nil => exact keeps_throw _
  | cons r rows => exact keeps_pure r

/-- A lookup on the pool. -/
theorem keeps_lookup (q : Sql) (f : q.Rows → α) :
    KeepsClient held (do
      let rows ← poolQuery q
      pure (f rows)) :=
  keeps_bind (keeps_poolQuery q) fun _ => keeps_pure _

/-- A repository method on the client. -/
theorem keeps_write (q : Sql) {f : q.Rows → Async α} (hf : ∀ rows, KeepsClient true (f rows)) :
    KeepsClient true (clientQuery q >>= f) :=
  keeps_bind (keeps_clientQuery q) hf

/-- The update of a status runs on the client it is given. -/
theorem keeps_updateStatus (id : Uuid) (status : InvoiceStatus) :
    KeepsClient true (InvoiceRepository.updateStatus id status .client) :=
  keeps_write _ fun _ => keeps_firstRowOr _ _

/-- The INSERT of an event runs on the client it is given. -/
theorem keeps_append (input : CreateEventInput) :
    KeepsClient true (EventRepository.append input .client) :=
  keeps_write _ fun _ => keeps_firstRow _

/-- The check of a transition uses no connection. -/
theorem keeps_assertValidTransition (current next : InvoiceStatus) :
    KeepsClient held (assertValidTransition current next) := by
  unfold assertValidTransition
  split
  · exact keeps_pure ()
  · exact keeps_throw _

/-- `withClient` releases what it takes. -/
theorem keeps_withClient {body : Async α} {handler : JsError → Async α}
    (hbody : KeepsClient true body) (hhandler : ∀ e, KeepsClient true (handler e)) :
    KeepsClient false (withClient body handler) := by
  refine Await.Triple.bind (discipline_mono Cmd.use) (triple_take rfl) fun _ => ?_
  refine triple_releasing hbody (fun e => ?_) (triple_give rfl)
  exact keeps_bind (Keeps.client rfl) fun _ => hhandler e

end

/-! ### The calls -/

/-- A submission gives back the client it takes, on every path. -/
theorem keeps_submitInvoice (cmd : SubmitInvoiceCommand) (actorId : Uuid) :
    KeepsClient false (InvoiceService.submitInvoice cmd actorId) := by
  rw [InvoiceService.submitInvoice]
  split
  · exact keeps_throw _
  refine keeps_bind keeps_newDate fun now => ?_
  split
  · exact keeps_throw _
  refine keeps_bind (keeps_lookup _ _) fun existing => ?_
  split
  · exact keeps_throw _
  refine keeps_withClient ?_ fun e => keeps_throw e
  refine keeps_bind keeps_begin fun _ => ?_
  -- The `INSERT` of `save` goes to the pool, with the client held.
  refine keeps_bind (keeps_bind (keeps_poolQuery _) fun _ => keeps_firstRow _) fun invoice => ?_
  refine keeps_bind (keeps_assertValidTransition _ _) fun _ => ?_
  refine keeps_bind (keeps_updateStatus _ _) fun submitted => ?_
  refine keeps_bind (keeps_append _) fun _ => ?_
  exact keeps_bind keeps_commit fun _ => keeps_pure _

/-- An approval gives back the client it takes, on every path. -/
theorem keeps_approveInvoice (cmd : ApproveInvoiceCommand) (actorId : Uuid) :
    KeepsClient false (InvoiceService.approveInvoice cmd actorId) := by
  rw [InvoiceService.approveInvoice]
  refine keeps_bind (keeps_lookup _ _) fun found => ?_
  cases found with
  | none => exact keeps_throw _
  | some invoice =>
      dsimp only
      split
      · exact keeps_throw _
      refine keeps_bind (keeps_assertValidTransition _ _) fun _ => ?_
      split
      · exact keeps_throw _
      refine keeps_withClient ?_ fun e => keeps_throw e
      refine keeps_bind keeps_begin fun _ => ?_
      refine keeps_bind (keeps_clientQuery _) fun _ => ?_
      refine keeps_bind (keeps_updateStatus _ _) fun approved => ?_
      refine keeps_bind keeps_newDate fun _ => ?_
      refine keeps_bind (keeps_append _) fun _ => ?_
      refine keeps_bind keeps_commit fun _ => ?_
      -- The lookup of the supplier goes to the pool, with the client held.
      refine keeps_bind (keeps_lookup _ _) fun _ => ?_
      refine keeps_bind (keeps_clientQuery _) fun credential => ?_
      split
      · refine keeps_bind keeps_newDate fun _ => ?_
        exact keeps_bind (keeps_queueAdd _) fun _ => keeps_pure _
      · exact keeps_pure _

/-- A financing request gives back the client it takes, on every path. -/
theorem keeps_requestFinancing (cmd : RequestFinancingCommand) (actorId : Uuid) :
    KeepsClient false (InvoiceService.requestFinancing cmd actorId) := by
  rw [InvoiceService.requestFinancing]
  refine keeps_bind (keeps_lookup _ _) fun found => ?_
  cases found with
  | none => exact keeps_throw _
  | some invoice =>
      dsimp only
      split
      · exact keeps_throw _
      refine keeps_bind (keeps_assertValidTransition _ _) fun _ => ?_
      refine keeps_withClient ?_ fun e => keeps_throw e
      refine keeps_bind keeps_begin fun _ => ?_
      refine keeps_bind (keeps_updateStatus _ _) fun _ => ?_
      refine keeps_bind keeps_newDate fun _ => ?_
      refine keeps_bind (keeps_append _) fun _ => ?_
      exact keeps_bind keeps_commit fun _ => keeps_pure _

/-- An assessment gives back the client it takes, on every path. -/
theorem keeps_assessAndRecord (cmd : AssessInvoiceRiskCommand) (actorId : Uuid) :
    KeepsClient false (RiskService.assessAndRecord cmd actorId) := by
  rw [RiskService.assessAndRecord]
  refine keeps_bind (keeps_lookup _ _) fun found => ?_
  cases found with
  | none => exact keeps_throw _
  | some invoice =>
      dsimp only
      split
      · exact keeps_throw _
      refine keeps_bind keeps_newDate fun assessedAt => ?_
      refine keeps_withClient ?_ fun e => keeps_throw e
      refine keeps_bind keeps_begin fun _ => ?_
      refine keeps_bind (keeps_append _) fun _ => ?_
      split
      · refine keeps_bind (keeps_updateStatus _ _) fun _ => ?_
        exact keeps_bind keeps_commit fun _ => keeps_pure _
      · exact keeps_bind keeps_commit fun _ => keeps_pure _

/-- Opening an account gives back the client it takes, on every path. -/
theorem keeps_createVan (cmd : CreateVanCommand) :
    KeepsClient false (VanService.createVan cmd) := by
  rw [VanService.createVan]
  refine keeps_bind (keeps_lookup _ _) fun found => ?_
  cases found with
  | none => exact keeps_throw _
  | some invoice =>
      dsimp only
      split
      · exact keeps_throw _
      refine keeps_bind (keeps_lookup _ _) fun existing => ?_
      split
      · exact keeps_throw _
      refine keeps_bind (keeps_bind keeps_newDate fun _ => ?_) fun accountNumber => ?_
      · exact keeps_bind (Keeps.free rfl) fun _ => keeps_pure _
      refine keeps_bind keeps_newDate fun now => ?_
      refine keeps_withClient ?_ fun e => keeps_throw e
      refine keeps_bind keeps_begin fun _ => ?_
      refine keeps_bind (keeps_write _ fun _ => keeps_firstRow _) fun van => ?_
      refine keeps_bind (keeps_write _ fun _ => keeps_firstRow _) fun _ => ?_
      refine keeps_bind (keeps_append _) fun _ => ?_
      exact keeps_bind keeps_commit fun _ => keeps_pure _

/-- A settlement keeps the client of the payment for the payment to give back. -/
theorem keeps_settle (cmd : RecordPaymentCommand) (van updated : VirtualAccount) :
    KeepsClient true (VanService.settle cmd van updated) := by
  rw [VanService.settle]
  refine keeps_bind (keeps_write _ fun _ => keeps_firstRowOr _ _) fun final => ?_
  refine keeps_bind (keeps_clientQuery _) fun _ => ?_
  refine keeps_bind keeps_newDate fun _ => ?_
  refine keeps_bind (keeps_append _) fun _ => ?_
  refine keeps_bind keeps_commit fun _ => ?_
  -- The lookup of the invoice goes to the pool, with the client held.
  refine keeps_bind (keeps_lookup _ _) fun found => ?_
  cases found with
  | none => exact keeps_pure _
  | some invoice =>
      refine keeps_bind keeps_newDate fun _ => ?_
      exact keeps_bind (keeps_queueAdd _) fun _ => keeps_pure _

/-- A payment gives back the client it takes, on every path. -/
theorem keeps_recordPayment (cmd : RecordPaymentCommand) :
    KeepsClient false (VanService.recordPayment cmd) := by
  rw [VanService.recordPayment]
  refine keeps_bind (keeps_lookup _ _) fun found => ?_
  cases found with
  | none => exact keeps_throw _
  | some van =>
      dsimp only
      split
      · exact keeps_throw _
      refine keeps_bind (keeps_poolQuery _) fun entries => ?_
      split
      · exact keeps_throw _
      split
      · exact keeps_throw _
      refine keeps_withClient ?_ fun e => ?_
      · refine keeps_bind keeps_begin fun _ => ?_
        refine keeps_bind (keeps_write _ fun _ => keeps_firstRow _) fun _ => ?_
        refine keeps_bind (keeps_write _ fun _ => keeps_firstRowOr _ _) fun updated => ?_
        -- Both ways to the end of the transaction, and the ledger of the answer.
        have hreply : ∀ final : VirtualAccount, KeepsClient true (do
            commit
            let ledgerEntries ← VanRepository.getLedgerEntries van.id
            pure ({ virtualAccount := final
                    ledgerEntries := ledgerEntries
                    isFullySettled := final.status == .settled } : VanWithLedger)) := fun final =>
          keeps_bind keeps_commit fun _ => keeps_bind (keeps_poolQuery _) fun _ => keeps_pure _
        split
        · exact keeps_bind (keeps_settle cmd van updated) hreply
        · exact keeps_bind keeps_commit fun _ => hreply updated
      · unfold VanService.onPaymentError
        split
        · exact keeps_throw _
        · exact keeps_throw _

/-- Every call uses one client at a time, and has released it when it ends. -/
theorem disciplined_body (c : Call) : Disciplined Cmd.use c.body.run false := by
  refine Keeps.disciplined ?_
  cases c with
  | submitInvoice cmd actorId =>
      exact keeps_bind (keeps_submitInvoice cmd actorId) fun _ => keeps_pure _
  | approveInvoice cmd actorId =>
      exact keeps_bind (keeps_approveInvoice cmd actorId) fun _ => keeps_pure _
  | requestFinancing cmd actorId =>
      exact keeps_bind (keeps_requestFinancing cmd actorId) fun _ => keeps_pure _
  | assessAndRecord cmd actorId =>
      exact keeps_bind (keeps_assessAndRecord cmd actorId) fun _ => keeps_pure _
  | createVan cmd => exact keeps_bind (keeps_createVan cmd) fun _ => keeps_pure _
  | recordPayment cmd => exact keeps_bind (keeps_recordPayment cmd) fun _ => keeps_pure _

/-! ### Deadlock -/

/-- In every run in which no grant of a client leaves all connections held by calls that may
still send a statement to the pool, some call that is not finished can take a step. -/
theorem no_pool_deadlock {max : Nat} (hmax : 1 ≤ max) {w : ServicePool}
    (h : PoolRuns max (FedStep Cmd.use max fun c : Call => c.body.run) w)
    (hunfinished : ∃ s ∈ w, s.prog.finished = false) :
    ∃ i, CanStep Cmd.use max (fun c : Call => c.body.run) w i :=
  h.canStep hmax disciplined_body hunfinished

/-- A check that is enough for `FedStep`: a connection is left. -/
def spareCheck (max : Nat) (w : ServicePool) (a : PoolStep) : Bool :=
  match w.step Cmd.use max (fun c : Call => c.body.run) a with
  | some w' => w'.clients < max
  | none => true

/-- The check that a spare connection is left is the condition on a step. -/
theorem fedStep_of_check {max : Nat} (w : ServicePool) (a : PoolStep)
    (h : spareCheck max w a = true) :
    FedStep Cmd.use max (fun c : Call => c.body.run) w a := by
  intro _ w' hstep hstarved
  simp only [spareCheck, hstep, decide_eq_true_iff] at h
  exact absurd hstarved.1 (Nat.not_le.mpr h)

/-- A database without invoices, on which the first steps of `submitInvoice` succeed. -/
def sampleOracle : (c : Cmd) → Except JsError (Command.Res Sql.Rows Ext.Res c)
  | .ext .date => .ok sampleEnv.now
  | .ext .connect => .ok ()
  | .begin => .ok ()
  | .pool (.selectInvoiceByNumber _) => .ok []
  | _ => .error .redis

/-- `submitInvoice` until it sends the `INSERT` of `save`. -/
def stepsToSave : List PoolStep :=
  [.spawn sampleSubmit, .answer 0 sampleOracle, .acquire 0, .answer 0 sampleOracle,
    .answer 0 sampleOracle, .answer 0 sampleOracle]

/-- With a second connection the call goes on. -/
theorem no_pool_deadlock_of_two : ∃ w : ServicePool,
    PoolRuns 2 (FedStep Cmd.use 2 fun c : Call => c.body.run) w ∧
      (∃ s ∈ w, s.prog.finished = false) ∧
      ∃ i, CanStep Cmd.use 2 (fun c : Call => c.body.run) w i := by
  have h : (PoolWorld.exec Cmd.use 2 (fun c : Call => c.body.run) (spareCheck 2) []
      stepsToSave).map (fun w => w.any fun s => !s.prog.finished) = some true := by
    decide +kernel
  obtain ⟨w, hw, hunfinished⟩ := Option.map_eq_some_iff.mp h
  obtain ⟨s, hs, hs'⟩ := List.any_eq_true.mp hunfinished
  have hrun := PoolRun.of_exec fedStep_of_check .start hw
  have hex : ∃ s ∈ w, s.prog.finished = false := ⟨s, hs, by simpa using hs'⟩
  exact ⟨w, hrun, hex, no_pool_deadlock (by decide) hrun hex⟩

/-- A pool of one connection: `submitInvoice` holds it, and waits for another one to send the
`INSERT` of `save`. -/
theorem submit_deadlocks : ∃ w : ServicePool,
    PoolRuns 1 (fun _ _ => True) w ∧ (∃ s ∈ w, s.prog.finished = false) ∧
      ¬ ∃ i, CanStep Cmd.use 1 (fun c : Call => c.body.run) w i := by
  have h : (PoolWorld.exec Cmd.use 1 (fun c : Call => c.body.run) (fun _ _ => true) []
      stepsToSave).map (fun w => decide (Deadlocked Cmd.use 1 w)) = some true := by
    decide +kernel
  obtain ⟨w, hw, hdead⟩ := Option.map_eq_some_iff.mp h
  have hdead : Deadlocked Cmd.use 1 w := of_decide_eq_true hdead
  refine ⟨w, PoolRun.of_exec (fun _ _ _ => trivial) .start hw, hdead.1, ?_⟩
  intro ⟨i, hi⟩
  have hstuck : w.step Cmd.use 1 (fun c : Call => c.body.run) (.acquire i) = none ∧
      w.step Cmd.use 1 (fun c : Call => c.body.run) (.answer i sampleOracle) = none :=
    hdead.stuck i sampleOracle
  rcases hi with ⟨w', hw'⟩ | hanswer
  · rw [hstuck.1] at hw'
    cases hw'
  · obtain ⟨w', hw'⟩ := hanswer sampleOracle
    rw [hstuck.2] at hw'
    cases hw'

end Vanguard
