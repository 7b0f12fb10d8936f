import Vanguard.Library.History
import Vanguard.Proofs.Conservation
import Vanguard.Proofs.FullPayment

/-!
# `Vanguard.Proofs.Reconciliation`: the account and the ledger of one view

`getVanDetails` reads the account row and the ledger with two statements. `recordPayment`
answers the row that its transaction has written with a ledger that it reads after its
`COMMIT`. `VanWithLedger.Balances` says that the two parts of the answer agree.

The runs mix the calls of the services with calls of `getVanDetails` (`ViewCall`). The history
`reporting` of a call is the account whose row it is going to report, from the moment of this
row to the read of the ledger. `balances_of_run` is the result for the runs in which no other
payment to the account commits in between (`UndisturbedStep`).

In `unbalanced_view` a payment commits between the two reads of `getVanDetails`.
-/

set_option autoImplicit false

namespace Vanguard

open ReadCommitted

/-! ### The calls -/

/-- A call of a service or of `getVanDetails`. -/
inductive ViewCall where
  | service (c : Call)
  | getVanDetails (invoiceId : Uuid)

/-- The program of a call. -/
def ViewCall.body : ViewCall → Async Reply
  | service c => c.body
  | getVanDetails invoiceId => do
    let r ← VanService.getVanDetails invoiceId
    pure (.payment r)

/-- The sum of the credits in the ledger of a view. -/
def VanWithLedger.credited (r : VanWithLedger) : Int :=
  ((r.ledgerEntries.filter fun e => e.entryType == .credit).map LedgerEntry.amountCents).sum

/-- The balance of the account is the sum of the credits, and the view is fully settled exactly
when this sum reaches the expected amount. -/
structure VanWithLedger.Balances (r : VanWithLedger) : Prop where
  received : r.virtualAccount.receivedAmountCents = r.credited
  settled : r.isFullySettled = true ↔ r.virtualAccount.expectedAmountCents ≤ r.credited

/-! ### What a call reports -/

/-- The batch credits the account. -/
def Credits (rows : List RowVersion) (vanId : Uuid) : Prop :=
  ∃ e, .ledgerEntry e ∈ rows ∧ e.virtualAccountId = vanId ∧ e.entryType = .credit

/-- The account that the first credit of a batch goes to. -/
def creditedAccount (rows : List RowVersion) : Option Uuid :=
  rows.findSome? fun
    | .ledgerEntry e => if e.entryType = .credit then some e.virtualAccountId else none
    | _ => none

/-- The account credited first stays the credited one when rows are added. -/
theorem creditedAccount_append {rows : List RowVersion} {vanId : Uuid}
    (h : creditedAccount rows = some vanId) (rows' : List RowVersion) :
    creditedAccount (rows ++ rows') = some vanId := by
  rw [creditedAccount] at h ⊢
  rw [List.findSome?_append, h, Option.some_or]

/-- Rows that credit no account do not credit a given one. -/
theorem not_credits_of_none {rows : List RowVersion} (h : creditedAccount rows = none)
    (vanId : Uuid) : ¬ Credits rows vanId := by
  rintro ⟨e, he, -, hcredit⟩
  have := List.findSome?_eq_none_iff.mp h _ he
  simp [hcredit] at this

/-- The account that a call is going to report and the moment of its row: the row that it has
read by the id of the invoice, or the one that it has credited, until it reads a ledger. -/
abbrev Reporting := Option (Uuid × Log)

/-- The history of a call that is `Reporting`. -/
def reporting : History Database RowVersion Sql Ext Env JsError Sql.Rows Ext.Res Reporting where
  start := none
  next
    | .pool (.selectVanByInvoiceId _), t, _, o, _ =>
      match o.answer with
      | .ok (van :: _) => some (van.id, t)
      | _ => none
    | .pool (.selectLedgerEntries _), _, _, _, _ => none
    | _, t, _, o, h =>
      match creditedAccount o.publish with
      | some vanId => some (vanId, t.publish o.publish)
      | none => h

/-- The call reports the account, and has not read its ledger yet. -/
def Awaits (vanId : Uuid) (h : Reporting)
    (p : Prog Cmd (fun c => Except JsError (c.Res Sql.Rows Ext.Res)) (Except JsError Reply)) :
    Prop :=
  (∃ u, h = some (vanId, u)) ∧ p.MayCall (.pool (.selectLedgerEntries vanId))

/-- The database, the calls of the services and the calls of `getVanDetails` on it. -/
abbrev ViewWorld :=
  ReadCommitted.World Database RowVersion Sql Ext Env JsError ViewCall (Except JsError Reply)
    Sql.Rows Ext.Res

/-- Each call of a service comes from a request. -/
def RoutedViewStep (_ : ViewWorld) (_ : Nat → Reporting) (a : Action ViewCall Env) : Prop :=
  ∀ c, a = .spawn (.service c) → c.Routed

/-- Besides, no step credits an account that another call is about to report. -/
def UndisturbedStep (w : ViewWorld) (hs : Nat → Reporting) (a : Action ViewCall Env) : Prop :=
  RoutedViewStep w hs a ∧
    ∀ i env vanId, a = .step i env → Credits (w.batch postgres i env) vanId →
      ∀ j s, j ≠ i → w.sessions[j]? = some s → ¬ Awaits vanId (hs j) s.prog

/-- The runs with the histories of their calls. -/
abbrev ViewRuns (ok : ViewWorld → (Nat → Reporting) → Action ViewCall Env → Prop)
    (db : Database) : ViewWorld → (Nat → Reporting) → Prop :=
  HistoryRun postgres (fun c : ViewCall => c.body.run) reporting ok (World.start (.start db))

/-- Rows without a credit of the account leave its credits as they are. -/
theorem creditsOf_writeAll {rows : List RowVersion} {vanId : Uuid} (h : ¬ Credits rows vanId)
    (db : Database) : (writeAll db rows).creditsOf vanId = db.creditsOf vanId := by
  induction rows generalizing db with
  | nil => rfl
  | cons r rows ih =>
      have hrest : ¬ Credits rows vanId := fun ⟨e, he, hid, hcredit⟩ =>
        h ⟨e, List.mem_cons_of_mem _ he, hid, hcredit⟩
      rw [writeAll_cons, ih hrest]
      cases r with
      | ledgerEntry e =>
          have hne : (e.virtualAccountId == vanId && e.entryType == .credit) = false := by
            by_contra hcredit
            simp only [Bool.not_eq_false, Bool.and_eq_true, beq_iff_eq] at hcredit
            exact h ⟨e, List.mem_cons_self, hcredit.1, hcredit.2⟩
          simp [Database.creditsOf, hne]
      | invoice r => rfl
      | virtualAccount v => rfl
      | invoiceEvent e => rfl

/-! ### The triples -/

/-- The view has the account row of the moment `u`, and the credits of the same moment. -/
structure ReadAt (u : Log) (r : VanWithLedger) : Prop where
  row : u.now.van r.virtualAccount.id = some r.virtualAccount
  credits : r.credited =
    ((u.now.creditsOf r.virtualAccount.id).map LedgerEntry.amountCents).sum
  settled : r.isFullySettled = (r.virtualAccount.status == .settled)

/-- What a call may use before it reads the ledger that it reports: no credit was committed
since the moment of the row. -/
def reportOwn (c : Cmd) (_ : Env) (h : Reporting) (t : Log) : Prop :=
  ∀ vanId u, h = some (vanId, u) → c = .pool (.selectLedgerEntries vanId) →
    t.now.creditsOf vanId = u.now.creditsOf vanId

/-- A view that a call answers is one of a single moment. -/
def Reports (r : Except JsError Reply) (m : Recollection Database RowVersion Env Reporting) :
    Prop :=
  ∀ a, r = .ok (.payment a) → ∃ u, u ≤ m.view.time ∧ ReadAt u a

/-- The same for the functions that answer a view. -/
def ReportsView (r : Except JsError VanWithLedger)
    (m : Recollection Database RowVersion Env Reporting) : Prop :=
  ∀ a, r = .ok a → ∃ u, u ≤ m.view.time ∧ ReadAt u a

/-- An error reports nothing, so there is nothing to show. -/
theorem reportsView_error (e : JsError) (m : Recollection Database RowVersion Env Reporting) :
    ReportsView (.error e) m := by
  intro a ha
  cases ha

/-- The predicate transformer of the reports. It does not speak of what a call commits. -/
abbrev reportRecall (c : Cmd) (m : Recollection Database RowVersion Env Reporting)
    (K : Recollection Database RowVersion Env Reporting →
      Except JsError (c.Res Sql.Rows Ext.Res) → Prop) : Prop :=
  postgres.recall reporting Interference.concurrent reportOwn (fun _ _ _ _ => True) c m K

section
variable {time s : Log} {seen : Option Log} {vanId : Uuid} {h : Reporting}

/-- The two reads of a view. -/
def readsView : Cmd → Bool
  | .pool (.selectVanByInvoiceId _) | .pool (.selectLedgerEntries _) => true
  | _ => false

/-- Any other command that commits nothing keeps the history. -/
theorem keeps_of_not_readsView {c : Cmd} (h : Reporting) (hc : readsView c = false) :
    reporting.Keeps h c := by
  intro t tx o ho
  simp only [reporting]
  split
  · cases hc
  · cases hc
  · rw [ho]
    rfl

/-- No account is reported, and none is after the read of a ledger. -/
theorem keeps_ledger (vanId : Uuid) :
    reporting.Keeps none (.pool (.selectLedgerEntries vanId)) :=
  fun _ _ _ _ => rfl

/-- The credits of a view whose ledger was read at a moment with the credits of `u`. -/
theorem readAt_of {u t : Log} {van : VirtualAccount} {entries : List LedgerEntry}
    (hrow : u.now.van van.id = some van) (hsame : t.now.creditsOf van.id = u.now.creditsOf van.id)
    (hperm : entries.Perm (t.now.entriesOf van.id)) :
    ReadAt u
      { virtualAccount := van
        ledgerEntries := entries
        isFullySettled := van.status == .settled } where
  row := hrow
  credits := by
    rw [← hsame]
    show ((entries.filter fun e => e.entryType == .credit).map LedgerEntry.amountCents).sum = _
    have hcredits : (t.now.entriesOf van.id).filter (fun e => e.entryType == .credit) =
        t.now.creditsOf van.id := by
      rw [Database.entriesOf, Database.creditsOf, List.filter_filter]
      simp only [Bool.and_comm]
    rw [← hcredits]
    exact ((hperm.filter _).map _).sum_eq
  settled := rfl

/-- The read of the ledger that a call reports. -/
theorem wp_reportLedger {tx : Tx Env RowVersion} {u : Log} {van : VirtualAccount}
    (hrow : u.now.van van.id = some van) (hu : u ≤ time) :
    Await.wp reportRecall (do
        let ledgerEntries ← VanRepository.getLedgerEntries van.id
        pure
          { virtualAccount := van
            ledgerEntries := ledgerEntries
            isFullySettled := van.status == .settled })
      ⟨⟨time, seen, tx⟩, some (van.id, u)⟩ ReportsView := by
  rw [VanRepository.getLedgerEntries, Await.wp_bind]
  intro t env hrel hown
  -- The ledger is read at the moment `t`, with the credits of the moment `u`.
  refine ⟨fun _ => trivial, ?_⟩
  have hsame := hown van.id u rfl rfl
  simp only [Engine.step, Engine.autocommit, postgres]
  cases env.fault with
  | true => exact reportsView_error _ _
  | false =>
      rintro a ha
      cases ha
      refine ⟨u, hu.trans (Interference.concurrent.le hrel), readAt_of hrow hsame ?_⟩
      exact List.perm_insertionSort (fun a b : LedgerEntry => a.createdAt ≤ b.createdAt) _

/-- `getVanDetails`. -/
theorem getVanDetails_reports (invoiceId : Uuid) :
    Await.wp reportRecall (VanService.getVanDetails invoiceId)
      ⟨⟨time, seen, .idle⟩, none⟩ ReportsView := by
  rw [VanService.getVanDetails, VanRepository.findByInvoiceId]
  simp only [Await.wp_bind]
  intro t env _ _
  refine ⟨fun _ => trivial, ?_⟩
  simp only [Engine.step, Engine.autocommit, postgres]
  cases env.fault with
  | true => exact reportsView_error _ _
  | false =>
      simp only [Sql.exec, reporting]
      cases hvan : t.now.virtualAccounts.rows.find? fun v => v.invoiceId == invoiceId with
      | none => exact reportsView_error _ _
      | some van =>
          -- The row is the one of the moment `t`, which is now in the history.
          have hrow : t.now.van van.id = some van :=
            Table.get?_of_mem (List.mem_of_find?_eq_some hvan)
          exact wp_reportLedger hrow (le_refl t)

/-! `recordPayment`. -/

/-- The transaction of a payment is committed: the answered row is the one of this moment,
which the history has. -/
def Credited (vanId : Uuid) (r : Except JsError VirtualAccount)
    (m : Recollection Database RowVersion Env Reporting) : Prop :=
  ∀ final, r = .ok final → m.view.tx = .idle ∧ final.id = vanId ∧
    ∃ u, m.history = some (vanId, u) ∧ u ≤ m.view.time ∧ u.now.van vanId = some final

/-- An error claims no credit, so there is nothing to show. -/
theorem credited_error (vanId : Uuid) (e : JsError)
    (m : Recollection Database RowVersion Env Reporting) : Credited vanId (.error e) m := by
  intro a ha
  cases ha

/-- The `COMMIT` of a payment. -/
theorem wp_commitCredit {start : Env} {ws : List RowVersion}
    (hcredit : creditedAccount ws = some vanId) {Q : Except JsError Unit →
      Recollection Database RowVersion Env Reporting → Prop}
    (hok : ∀ t, Quiet ws time t →
      Q (.ok ()) ⟨⟨t.publish ws, some (seen.getD t), .idle⟩, some (vanId, t.publish ws)⟩)
    (herr : ∀ e m, Q (.error e) m) :
    Await.wp reportRecall commit ⟨⟨time, seen, .active start ws⟩, h⟩ Q := by
  intro t env hrel _
  refine ⟨fun _ => trivial, ?_⟩
  dsimp only
  cases hf : env.fault with
  | true =>
      -- The transaction is lost.
      have hstep : postgres.step .commit env t.now (.active start ws) =
          ⟨[], .idle, .error (.pg .connectionFailure)⟩ := by
        simp [Engine.step, postgres, hf]
      rw [hstep]
      exact herr _ _
  | false =>
      have hstep : postgres.step .commit env t.now (.active start ws) = ⟨ws, .idle, .ok ()⟩ := by
        simp [Engine.step, postgres, hf]
      rw [hstep]
      simp only [reporting, hcredit]
      exact hok t hrel

/-- The end of the `try` block: the second `COMMIT`, which finds no transaction, and the read of
the ledger. -/
theorem reply_reports {final : VirtualAccount} {u : Log} (hid : final.id = vanId)
    (hrow : u.now.van vanId = some final) (hu : u ≤ time) :
    Await.wp reportRecall (do
        commit
        let ledgerEntries ← VanRepository.getLedgerEntries vanId
        pure
          { virtualAccount := final
            ledgerEntries := ledgerEntries
            isFullySettled := final.status == .settled })
      ⟨⟨time, seen, .idle⟩, some (vanId, u)⟩ ReportsView := by
  subst hid
  rw [Await.wp_bind]
  refine Await.recall_keeping (Await.only_await (keeps_of_not_readsView _ rfl))
    (wp_commit_idle (fun t ht => ?_) fun t _ _ => reportsView_error _ _)
  exact wp_reportLedger hrow (hu.trans ht.le)

/-- The settle branch, from the row that the increment has written to the queued receipt. -/
theorem settle_reports {cmd : RecordPaymentCommand} {van updated : VirtualAccount} {start : Env}
    {ws : List RowVersion} (hcredit : creditedAccount ws = some van.id)
    (hid : updated.id = van.id)
    (hrow : ∀ db : Database, (writeAll db ws).van van.id = some updated) :
    Await.wp reportRecall (VanService.settle cmd van updated)
      ⟨⟨time, seen, .active start ws⟩, none⟩ (Credited van.id) := by
  rw [VanService.settle, Await.wp_bind]
  refine Await.recall_keeping (Await.only_bind (Await.only_await (keeps_of_not_readsView _ rfl))
    (only_firstRowOr _)) (wp_settleAccount (fun t _ => ⟨updated, hrow t.now⟩)
      (fun t₁ v _ hv => ?_) fun t _ _ => credited_error _ _ _)
  obtain rfl := Option.some.inj (hv.symm.trans (hrow t₁.now))
  dsimp only
  rw [Await.wp_bind]
  refine Await.recall_keeping (Await.only_await (keeps_of_not_readsView _ rfl))
    (wp_setStatus (fun t₂ _ => ?_) fun t _ _ => credited_error _ _ _)
  dsimp only
  rw [Await.wp_bind]
  refine Await.recall_keeping (Await.only_await (keeps_of_not_readsView _ rfl))
    (wp_newDate fun t₃ settledAt _ => ?_)
  dsimp only
  rw [Await.wp_bind]
  refine Await.recall_keeping (Await.only_bind (Await.only_await (keeps_of_not_readsView _ rfl))
    only_firstRow) (wp_appendEvent (fun t₄ _ _ => ?_) (fun t e _ _ _ => credited_error _ _ _)
      fun t _ _ => credited_error _ _ _)
  dsimp only
  rw [Await.wp_bind]
  -- The batch credits the account, and its last version of the row is the answered one.
  have hbatch : ∀ rows rows', creditedAccount (ws ++ [.virtualAccount v.settle] ++ rows ++ rows') =
      some van.id := fun rows rows' =>
    creditedAccount_append (creditedAccount_append (creditedAccount_append hcredit _) rows) rows'
  refine wp_commitCredit (hbatch _ _) (fun t₅ _ => ?_) fun _ _ => credited_error _ _ _
  generalize hrows : ws ++ [RowVersion.virtualAccount v.settle] ++ _ ++ _ = rows
  have hfinal : (t₅.publish rows).now.van van.id = some v.settle := by
    rw [Timeline.now_publish, ← hrows]
    simp [writeAll_append, hid]
  dsimp only
  rw [Await.wp_bind]
  refine Await.recall_keeping (Await.only_bind (Await.only_await (keeps_of_not_readsView _ rfl))
    fun _ => Await.only_pure _) (wp_findInvoice (fun t₆ h₆ => ?_) fun t _ _ => credited_error _ _ _)
  -- The receipt. The answered row stays the one of the `COMMIT`.
  have hle : t₅.publish rows ≤ t₆ := h₆.le
  dsimp only
  split
  · intro final hfinal'
    cases hfinal'
    exact ⟨rfl, hid, _, rfl, hle, hfinal⟩
  · rw [Await.wp_bind]
    refine Await.recall_keeping (Await.only_await (keeps_of_not_readsView _ rfl))
      (wp_newDate fun t₇ settledAt' h₇ => ?_)
    dsimp only
    rw [Await.wp_bind]
    refine Await.recall_keeping (Await.only_await (keeps_of_not_readsView _ rfl))
      (wp_queueAdd (fun t₈ h₈ => ?_) fun t _ _ => credited_error _ _ _)
    intro final hfinal'
    cases hfinal'
    exact ⟨rfl, hid, _, rfl, (hle.trans h₇.le).trans h₈.le, hfinal⟩

/-- The `try` block of a payment: the view of its body, or an error. -/
theorem wp_releasing {body : Async VanWithLedger} {handler : JsError → Async VanWithLedger}
    {f : JsError → JsError}
    (hbody : Await.wp reportRecall body ⟨⟨time, seen, .idle⟩, h⟩ ReportsView)
    (hhandler : ∀ e, handler e = throw (f e)) :
    Await.wp reportRecall
      (Await.tryFinally body (fun err => do rollback; handler err) release)
      ⟨⟨time, seen, .idle⟩, h⟩ ReportsView := by
  rw [Await.wp_tryFinally]
  refine Await.wp_mono Engine.recall_mono hbody fun r m hr => ?_
  cases r with
  | ok a =>
      intro t env hrel _
      refine ⟨fun _ => trivial, ?_⟩
      rintro a' ha'
      cases ha'
      obtain ⟨u, hu, hread⟩ := hr a rfl
      exact ⟨u, hu.trans (Interference.concurrent.le hrel), hread⟩
  | error e =>
      dsimp only
      rw [Await.wp_bind]
      intro t env _ _
      refine ⟨fun _ => trivial, ?_⟩
      generalize (postgres.step .rollback env t.now m.view.tx).answer = answer
      -- After the `ROLLBACK`, answered or not, only the connection is released.
      cases answer with
      | ok _ =>
          show Await.wp reportRecall (handler e) _ _
          rw [hhandler]
          intro t' env' _ _
          refine ⟨fun _ => trivial, ?_⟩
          exact reportsView_error _ _
      | error e' =>
          intro t' env' _ _
          refine ⟨fun _ => trivial, ?_⟩
          exact reportsView_error _ _

/-- `recordPayment`. -/
theorem recordPayment_reports (cmd : RecordPaymentCommand) :
    Await.wp reportRecall (VanService.recordPayment cmd)
      ⟨⟨time, none, .idle⟩, none⟩ ReportsView := by
  rw [VanService.recordPayment, Await.wp_bind]
  refine Await.recall_keeping (Await.only_bind
    (Await.only_await (keeps_of_not_readsView _ rfl)) fun _ => Await.only_pure _)
    (wp_findVanByNumber (fun s _ => ?_) fun s _ _ => reportsView_error _ _)
  cases hvan : s.now.vanByNumber cmd.accountNumber with
  | none => exact reportsView_error _ _
  | some van =>
      dsimp only
      split
      · exact reportsView_error _ _
      rw [Await.wp_bind]
      -- The read of Layer 1. Nothing is reported yet.
      refine Await.recall_keeping (Await.only_await (keeps_ledger _))
        (wp_getLedgerEntries (fun t₀ entries h₀ _ => ?_) fun t _ _ => reportsView_error _ _)
      dsimp only
      split
      · exact reportsView_error _ _
      split
      · exact reportsView_error _ _
      rw [withClient, Await.wp_bind]
      refine Await.recall_keeping (Await.only_await (keeps_of_not_readsView _ rfl))
        (wp_connect (fun t₁ h₁ => ?_) fun t _ _ => reportsView_error _ _)
      dsimp only
      refine wp_releasing ?_ (onPaymentError_eq cmd)
      rw [Await.wp_bind]
      refine Await.recall_keeping (Await.only_await (keeps_of_not_readsView _ rfl))
        (wp_begin (fun t₂ start h₂ => ?_) fun t _ _ => reportsView_error _ _)
      dsimp only
      rw [Await.wp_bind]
      refine Await.recall_keeping (Await.only_bind (Await.only_await (keeps_of_not_readsView _ rfl))
        only_firstRow) (wp_appendLedgerEntry (fun t₃ h₃ _ _ => ?_)
          (fun t e _ _ _ => reportsView_error _ _) (fun t e _ _ _ => reportsView_error _ _)
          fun t _ _ => reportsView_error _ _)
      dsimp only
      rw [Await.wp_bind]
      have hle : s ≤ t₃ := h₀.le.trans ((h₁.le.trans h₂.le).trans h₃.le)
      refine Await.recall_keeping (Await.only_bind (Await.only_await (keeps_of_not_readsView _ rfl))
        (only_firstRowOr _)) (wp_updateReceivedAmount (fun t h => ?_) (fun t₄ v h₄ hrow => ?_)
          (fun t v e _ _ _ _ => reportsView_error _ _) fun t _ _ => reportsView_error _ _)
      · exact van_of_le (hle.trans h.le) (Database.vanByNumber_some hvan).1
      dsimp only
      -- The batch credits the account, and writes the row that the `UPDATE` returned.
      have hid : v.id = van.id := by
        have hv : (writeAll t₄.now []).van van.id = some v := by simpa using hrow
        exact Database.van_id hv
      have hrow : ∀ db : Database, (writeAll db ([] ++
          [RowVersion.ledgerEntry ((cmd.credit van.id).row start)] ++
            [.virtualAccount (v.receive cmd.amountCents)])).van van.id =
          some (v.receive cmd.amountCents) := by
        intro db
        simp [hid]
      have hcredit : creditedAccount ([] ++
          [RowVersion.ledgerEntry ((cmd.credit van.id).row start)] ++
            [.virtualAccount (v.receive cmd.amountCents)]) = some van.id :=
        rfl
      split
      · rw [Await.wp_bind]
        refine Await.wp_mono Engine.recall_mono (settle_reports hcredit hid hrow) fun r m hr => ?_
        cases r with
        | error e => exact reportsView_error _ _
        | ok final =>
            obtain ⟨⟨time', seen', tx'⟩, h'⟩ := m
            obtain ⟨rfl, hid', u, rfl, hu, hrow'⟩ := hr final rfl
            exact reply_reports hid' hrow' hu
      · rw [Await.wp_bind]
        refine wp_commitCredit hcredit (fun t₅ _ => ?_) fun _ _ => reportsView_error _ _
        refine reply_reports hid ?_ (le_refl _)
        rw [Timeline.now_publish]
        exact hrow t₅.now

/-- A call that answers the view of its program. -/
theorem reports_of_view {p : Async VanWithLedger}
    {m : Recollection Database RowVersion Env Reporting}
    (h : Await.wp reportRecall p m ReportsView) :
    Await.wp reportRecall (do
        let r ← p
        pure (Reply.payment r)) m Reports := by
  rw [Await.wp_bind]
  refine Await.wp_mono Engine.recall_mono h fun r m' hr => ?_
  cases r with
  | ok r =>
      intro a ha
      cases ha
      exact hr r rfl
  | error e =>
      intro a ha
      cases ha

/-- A call whose answer is no view. -/
theorem otherReply_reports {α : Type} {f : α → Reply} (p : Async α)
    {m : Recollection Database RowVersion Env Reporting}
    (hf : ∀ r a, f r ≠ .payment a) :
    Await.wp reportRecall (do
        let r ← p
        pure (f r)) m Reports := by
  rw [Await.wp_bind]
  refine recall_trivial fun r m' => ?_
  cases r with
  | ok r =>
      intro a ha
      exact absurd (Except.ok.inj ha) (hf r a)
  | error e =>
      intro a ha
      cases ha

/-- `getVanDetails` commits nothing. -/
theorem getVanDetails_readOnly (invoiceId : Uuid) :
    Await.wp (postgres.rely Interference.concurrent (fun _ => True) fun _ _ _ => False)
      (VanService.getVanDetails invoiceId) ⟨time, seen, .idle⟩ fun _ _ => True := by
  rw [VanService.getVanDetails, VanRepository.findByInvoiceId]
  simp only [Await.wp_bind]
  refine wp_select (f := fun db => (db.virtualAccounts.rows.find? fun v =>
    v.invoiceId == invoiceId).toList) (fun _ _ => rfl) (fun t _ => ?_) fun _ _ _ => trivial
  cases (t.now.virtualAccounts.rows.find? fun v => v.invoiceId == invoiceId).toList with
  | nil => exact trivial
  | cons van rows =>
      simp only [Await.wp_pure, List.head?_cons, Await.wp_bind]
      exact wp_getLedgerEntries (fun _ _ _ _ => trivial) fun _ _ _ => trivial

end

/-- What a call guarantees of the batches it commits. -/
def viewGuarantee (c : ViewCall) (born : Log) (_ : Reporting) (seen t : Log)
    (rows : List RowVersion) : Prop :=
  match c with
  | .service c => Commit Interference.concurrent born seen t c rows
  | .getVanDetails _ => False

/-- Every call commits what it guarantees, and reports a view of a single moment. -/
theorem ViewCall.spec (c : ViewCall) (born : Log) :
    c.body.run.wp (postgres.recall reporting Interference.concurrent reportOwn
      (viewGuarantee c born)) ⟨⟨born, none, .idle⟩, none⟩ Reports := by
  cases c with
  | service c =>
      show c.body.run.wp _ _ _
      have hreports : Await.wp reportRecall c.body ⟨⟨born, none, .idle⟩, none⟩ Reports := by
        cases c with
        | recordPayment cmd => exact reports_of_view (recordPayment_reports cmd)
        | submitInvoice cmd actorId => exact otherReply_reports _ (by intro r a; exact nofun)
        | approveInvoice cmd actorId => exact otherReply_reports _ (by intro r a; exact nofun)
        | requestFinancing cmd actorId => exact otherReply_reports _ (by intro r a; exact nofun)
        | assessAndRecord cmd actorId => exact otherReply_reports _ (by intro r a; exact nofun)
        | createVan cmd => exact otherReply_reports _ (by intro r a; exact nofun)
      have hcommits := recall_and (recall_of_rely
        (Call.spec Interference.concurrent (fun _ => True) born c)) hreports
      exact Prog.wp_mono Engine.recall_mono hcommits fun _ _ h => h.2
  | getVanDetails invoiceId =>
      have hreads : Await.wp (postgres.rely Interference.concurrent (fun _ => True)
          fun _ _ _ => False) (ViewCall.getVanDetails invoiceId).body ⟨born, none, .idle⟩
          fun _ _ => True := by
        rw [ViewCall.body, Await.wp_bind]
        refine Await.wp_mono Engine.rely_mono (getVanDetails_readOnly invoiceId) fun r v _ => ?_
        cases r <;> exact trivial
      have hreports : Await.wp reportRecall (ViewCall.getVanDetails invoiceId).body
          ⟨⟨born, none, .idle⟩, none⟩ Reports :=
        reports_of_view (getVanDetails_reports invoiceId)
      exact Prog.wp_mono Engine.recall_mono (recall_and (recall_of_rely hreads) hreports)
        fun _ _ h => h.2

/-! ### Runs -/

/-- The committed moments of the runs: the books are balanced and the accounts are exact. -/
structure SoundLog (t : Log) : Prop where
  balanced : ∀ u ≤ t, Books.Balanced u.now.books
  accounts : ∀ u ≤ t, u.now.AccountsExact

/-- The batch of a routed call. -/
theorem SoundLog.commit {t born seen : Log} {c : Call} {rows : List RowVersion} (h : SoundLog t)
    (hc : Commit Interference.concurrent born seen t c rows) (hroute : c.Routed) :
    SoundLog (t.commit rows) := by
  constructor
  · intro u hu
    rcases Timeline.le_commit_iff.mp hu with rfl | hu
    · exact (h.balanced t (le_refl t)).step hc.books_step
    · exact h.balanced u hu
  · intro u hu
    rcases Timeline.le_commit_iff.mp hu with rfl | hu
    · exact (h.accounts t (le_refl t)).commit hc hroute
    · exact h.accounts u hu

/-- What every step of an undisturbed run keeps. As long as a call may still read the ledger of
the account that it is going to report, the credits are those of the moment of its row. -/
structure ViewsAgree (w : ViewWorld) (hs : Nat → Reporting) : Prop where
  routed : ∀ s ∈ w.sessions, ∀ c, s.call = .service c → c.Routed
  log : SoundLog w.timeline
  reading : ∀ i s vanId u, w.sessions[i]? = some s → hs i = some (vanId, u) →
    s.prog.MayCall (.pool (.selectLedgerEntries vanId)) →
    w.timeline.now.creditsOf vanId = u.now.creditsOf vanId

/-- The read of an account commits nothing. -/
theorem publish_selectVan (id : Uuid) (env : Env) (db : Database) (tx : Tx Env RowVersion) :
    (postgres.step (.pool (.selectVanByInvoiceId id)) env db tx).publish = [] := by
  cases hf : env.fault with
  | true => simp [Engine.step, Engine.autocommit, postgres, hf]
  | false =>
      simp only [Engine.step, Engine.autocommit, postgres, hf]
      rfl

/-- The history after a command is about the credits of the moment after it, or it is the old
one and the command has not credited the account. -/
theorem reporting_next {c : Cmd} {t u : Log} {tx : Tx Env RowVersion} {env : Env}
    {h : Reporting} {vanId : Uuid}
    (hnext : reporting.next c t tx (postgres.step c env t.now tx) h = some (vanId, u)) :
    (t.publish (postgres.step c env t.now tx).publish).now.creditsOf vanId =
        u.now.creditsOf vanId ∨
      (h = some (vanId, u) ∧ ¬ Credits (postgres.step c env t.now tx).publish vanId) := by
  simp only [reporting] at hnext
  split at hnext
  · -- The row was read at the moment `t`, and reading it commits nothing.
    split at hnext
    · cases hnext
      rw [publish_selectVan]
      exact Or.inl rfl
    · cases hnext
  · cases hnext
  · split at hnext
    · cases hnext
      exact Or.inl rfl
    · rename_i hnone
      exact Or.inr ⟨hnext, not_credits_of_none hnone vanId⟩

section
variable {db : Database} {w w' : ViewWorld} {hs : Nat → Reporting}

/-- A call starts. -/
theorem ViewsAgree.spawn (h : ViewsAgree w hs) (hfresh : hs w.sessions.length = none)
    {c : ViewCall} (hroute : ∀ c', c = .service c' → c'.Routed) :
    ViewsAgree { w with sessions := w.sessions ++ [⟨c, w.timeline, none, .idle, c.body.run⟩] }
      hs where
  routed s hs' c' hc := by
    rcases List.mem_append.mp hs' with hs' | hs'
    · exact h.routed s hs' c' hc
    · rw [List.mem_singleton.mp hs'] at hc
      exact hroute c' hc
  log := h.log
  reading i s vanId u hi hu hmay := by
    rcases getElem?_snoc_cases hi with hi | ⟨rfl, -⟩
    · exact h.reading i s vanId u hi hu hmay
    · -- The new call has no history.
      rw [hfresh] at hu
      cases hu

/-- One step of an undisturbed run. -/
theorem ViewsAgree.step (h : ViewsAgree w hs) (hfresh : hs w.sessions.length = none)
    {a : Action ViewCall Env} (hok : UndisturbedStep w hs a)
    (hstep : w.step postgres (fun c : ViewCall => c.body.run) a = some w')
    (hguar : w.Guarantees postgres viewGuarantee hs a) :
    ViewsAgree w' (w.record postgres reporting hs a) := by
  rcases World.step_cases hstep with ⟨c, rfl, rfl⟩ | ⟨i, env, s, c, k, rfl, hi, hk, hb, -, rfl⟩
  · exact h.spawn hfresh fun c' hc => hok.1 c' (congrArg Action.spawn hc)
  constructor
  · intro s' hs' c' hc
    rcases List.mem_or_eq_of_mem_set hs' with hs' | rfl
    · exact h.routed s' hs' c' hc
    · exact h.routed s (List.mem_of_getElem? hi) c' hc
  · show SoundLog (w.timeline.publish (w.batch postgres i env))
    cases hbatch : w.batch postgres i env with
    | nil => exact h.log
    | cons r rows =>
        -- The batch is what the guarantee of its call says.
        have hg := hguar i env s rfl hi (by rw [hbatch]; exact List.cons_ne_nil r rows)
        rw [hbatch] at hg
        cases hcall : s.call with
        | service c' =>
            rw [hcall] at hg
            exact h.log.commit hg (h.routed s (List.mem_of_getElem? hi) c' hcall)
        | getVanDetails invoiceId =>
            rw [hcall] at hg
            exact absurd hg id
  · intro j s' vanId u hj hu hmay
    show (w.timeline.publish (w.batch postgres i env)).now.creditsOf vanId = _
    by_cases hji : j = i
    · -- The session of the step.
      subst hji
      rw [List.getElem?_set_self (List.getElem?_eq_some_iff.mp hi).1] at hj
      obtain rfl := Option.some.inj hj
      rw [World.record_step hi hk, Function.update_self] at hu
      rw [hb]
      rcases reporting_next hu with hsame | ⟨hold, hcredits⟩
      · -- It has just read the row, or committed its own credit.
        exact hsame
      · rw [Timeline.now_publish, creditsOf_writeAll hcredits]
        refine h.reading j s vanId u hi hold ?_
        rw [hk]
        exact .later _ hmay
    · -- Another session, which the step does not disturb.
      rw [List.getElem?_set_ne (Ne.symm hji)] at hj
      rw [World.record_ne hji] at hu
      have hcredits : ¬ Credits (w.batch postgres i env) vanId := fun hcredits =>
        hok.2 i env vanId rfl hcredits j s' hji hj ⟨⟨u, hu⟩, hmay⟩
      rw [Timeline.now_publish, creditsOf_writeAll hcredits]
      exact h.reading j s' vanId u hj hu hmay

/-- Every call of an undisturbed run is at a point of its program where its triple holds. -/
theorem viewsAgree_of_run (hdb : db.NoAccounts) (h : ViewRuns UndisturbedStep db w hs) :
    ViewsAgree w hs ∧ w.Recalls postgres reporting Interference.concurrent reportOwn
      viewGuarantee (fun _ _ => Reports) hs := by
  refine HistoryRun.sound (J := ViewsAgree) Interference.concurrent_shared ?_ ?_ ?_ ?_ h
  · intro w hs c _ t
    exact c.spec t
  · constructor
    · intro s hs'
      cases hs'
    · constructor
      · intro u hu
        rw [Timeline.le_start_iff.mp hu]
        exact hdb.balanced
      · intro u hu
        rw [Timeline.le_start_iff.mp hu]
        exact .of_none hdb.van
    · intro i s vanId u _ hu
      cases hu
  · -- A call that is about to read the ledger may still read it.
    intro w hs i env s c k hJ _ hi hk vanId u hu hc
    refine hJ.reading i s vanId u hi hu ?_
    rw [hk]
    subst hc
    exact .here _
  · intro w hs a w' hrun hJ hok hstep hguar
    exact hJ.step (hrun.fresh (List.getElem?_eq_none_iff.mpr (Nat.le_refl _))) hok hstep hguar

/-- In every undisturbed run of the routed calls and of `getVanDetails`, every answered view
balances. -/
theorem balances_of_run (hdb : db.NoAccounts) (h : ViewRuns UndisturbedStep db w hs) :
    ∀ s ∈ w.sessions, ∀ a, s.prog = .ret (.ok (.payment a)) → a.Balances := by
  intro s hs' a ha
  obtain ⟨hJ, hrecalls⟩ := viewsAgree_of_run hdb h
  obtain ⟨i, hi⟩ := List.getElem?_of_mem hs'
  obtain ⟨t, ht, hreports⟩ := hrecalls.ended hi ha
  obtain ⟨u, hu, hread⟩ := hreports a rfl
  have hle : u ≤ w.timeline := hu.trans ht
  -- The ledger of the moment `u` has the credits of the row.
  have hreceived : a.virtualAccount.receivedAmountCents = a.credited := by
    rw [hread.credits]
    exact (conserved_of_balanced (hJ.log.balanced u hle)).received _
      (Database.mem_virtualAccounts.mpr hread.row)
  have hexact := hJ.log.accounts u hle _ _ hread.row
  refine ⟨hreceived, ?_⟩
  rw [hread.settled, ← hreceived, beq_iff_eq]
  exact hexact.settled_iff

end

/-! ### Sample runs -/

/-- The check of `RoutedViewStep`. -/
def routedViewCheck (rs : List Request) (_ : ViewWorld) (_ : Nat → Reporting) :
    Action ViewCall Env → Bool
  | .spawn (.service c) => rs.any fun r => r.call == some c
  | .spawn (.getVanDetails _) | .step _ _ => true

/-- A step that passes `routedViewCheck` meets `RoutedViewStep`. -/
theorem routedViewStep_of_check {rs : List Request} (w : ViewWorld) (hs : Nat → Reporting)
    (a : Action ViewCall Env) (h : routedViewCheck rs w hs a = true) : RoutedViewStep w hs a := by
  rintro c rfl
  obtain ⟨r, -, hr⟩ := List.any_eq_true.mp h
  exact ⟨r, beq_iff_eq.mp hr⟩

/-- No credit is committed beside a call in progress. -/
def creditCheck (w : ViewWorld) : Action ViewCall Env → Bool
  | .spawn _ => true
  | .step i env => (creditedAccount (w.batch postgres i env)).isNone ||
    (w.sessions.eraseIdx i).all fun s => s.prog.finished

/-- A check that is enough for `UndisturbedStep`. -/
def undisturbedCheck (rs : List Request) (w : ViewWorld) (hs : Nat → Reporting)
    (a : Action ViewCall Env) : Bool :=
  routedViewCheck rs w hs a && creditCheck w a

/-- A step that passes `undisturbedCheck` meets `UndisturbedStep`. -/
theorem undisturbedStep_of_check {rs : List Request} (w : ViewWorld) (hs : Nat → Reporting)
    (a : Action ViewCall Env) (h : undisturbedCheck rs w hs a = true) : UndisturbedStep w hs a := by
  rw [undisturbedCheck, Bool.and_eq_true] at h
  refine ⟨routedViewStep_of_check w hs a h.1, ?_⟩
  rintro i env vanId rfl hcredits j s hji hj ⟨-, hmay⟩
  rcases Bool.or_eq_true_iff.mp h.2 with hnone | hall
  · exact not_credits_of_none (Option.isNone_iff_eq_none.mp hnone) vanId hcredits
  · have hmem : s ∈ w.sessions.eraseIdx i :=
      List.mem_eraseIdx_iff_getElem?.mpr ⟨j, hji, hj⟩
    have hfinished := List.all_eq_true.mp hall s hmem
    cases hk : s.prog with
    | ret a =>
        rw [hk] at hmay
        cases hmay
    | call c k =>
        rw [hk] at hfinished
        cases hfinished

/-- A step of the services as a step beside the views. -/
def viewStep : Step → Action ViewCall Env
  | .spawn c => .spawn (.service c)
  | .step i env => .step i env

/-- The view that the call `i` has answered. -/
def ViewWorld.view (w : ViewWorld) (i : Nat) : Option VanWithLedger :=
  (w.sessions[i]?).bind fun s =>
    match s.prog with
    | .ret (.ok (.payment a)) => some a
    | _ => none

/-- A view is the answer of a payment or a read that has resolved. -/
theorem ViewWorld.view_some {w : ViewWorld} {i : Nat} {a : VanWithLedger}
    (h : w.view i = some a) :
    ∃ s, w.sessions[i]? = some s ∧ s.prog = .ret (.ok (.payment a)) := by
  obtain ⟨s, hs, h⟩ := Option.bind_eq_some_iff.mp h
  split at h
  · rename_i a' hk
    cases h
    exact ⟨s, hs, hk⟩
  · cases h

/-- The world and the histories after a list of steps, when each passes the check `p`. -/
def viewPlay (p : ViewWorld → (Nat → Reporting) → Action ViewCall Env → Bool)
    (as : List (Action ViewCall Env)) : Option (ViewWorld × (Nat → Reporting)) :=
  World.execRecorded postgres (fun c : ViewCall => c.body.run) reporting p
    (World.start (.start sampleDb)) (fun _ => none) as

/-- The balance, the credits and the flag of a view. -/
def VanWithLedger.figures (a : VanWithLedger) : Int × Int × Bool :=
  (a.virtualAccount.receivedAmountCents, a.credited, a.isFullySettled)

/-- `getVanDetails` reads the row and the ledger while a payment is in progress. -/
theorem balances_of_overlapping_payment : ∃ (w : ViewWorld) (hs : Nat → Reporting),
    ViewRuns UndisturbedStep sampleDb w hs ∧ ∃ s ∈ w.sessions, ∃ a,
      s.prog = .ret (.ok (.payment a)) ∧ a.figures = (400, 400, false) ∧ a.Balances := by
  have h : (viewPlay (undisturbedCheck (sampleRequests 400 "k")) (stepsToAccount.map viewStep ++
      .spawn (.getVanDetails sampleId) ::
      .spawn (.service (.recordPayment (samplePayment 400 "k"))) ::
      (steps 4 1 ++ steps 5 6 ++ steps 4 1 ++ steps 5 4).map viewStep)).map
      (fun r => ((ViewWorld.view r.1 4).map VanWithLedger.figures,
        (ViewWorld.view r.1 5).map VanWithLedger.figures)) =
      some (some (0, 0, false), some (400, 400, false)) := by
    decide +kernel
  obtain ⟨⟨w, hs⟩, hw, hl⟩ := Option.map_eq_some_iff.mp h
  have hrun : ViewRuns UndisturbedStep sampleDb w hs :=
    HistoryRun.of_exec undisturbedStep_of_check .refl hw
  obtain ⟨a, ha, hfigures⟩ := Option.map_eq_some_iff.mp (Prod.mk.inj hl).2
  obtain ⟨s, hi, hk⟩ := ViewWorld.view_some ha
  have hs' := List.mem_of_getElem? hi
  exact ⟨w, hs, hrun, s, hs', a, hk, hfigures,
    balances_of_run ⟨fun _ => rfl, rfl⟩ hrun s hs' a hk⟩

/-- Two payments of 400 and 600 paise that settle an advance of 1000. The second one commits
after `getVanDetails` has read the row and the first payment has committed, and before either
has read the ledger. Both answer a ledger over 1000 with an account that has not received it. -/
theorem unbalanced_view : ∃ (w : ViewWorld) (hs : Nat → Reporting),
    ViewRuns RoutedViewStep sampleDb w hs ∧
      ∀ i ∈ [4, 5], ∃ s a, w.sessions[i]? = some s ∧ s.prog = .ret (.ok (.payment a)) ∧
        a.virtualAccount.expectedAmountCents ≤ a.credited ∧ a.isFullySettled = false ∧
        ¬ a.Balances := by
  have h : (viewPlay
      (routedViewCheck (.paymentWebhook (samplePayment 600 "k2") :: sampleRequests 400 "k1"))
      (stepsToAccount.map viewStep ++ .spawn (.getVanDetails sampleId) ::
        .spawn (.service (.recordPayment (samplePayment 400 "k1"))) ::
        .spawn (.service (.recordPayment (samplePayment 600 "k2"))) ::
        (steps 4 1 ++ steps 5 7 ++ steps 6 17 ++ steps 4 1 ++ steps 5 3).map viewStep)).map
      (fun r => [4, 5].map fun i => (ViewWorld.view r.1 i).map fun a =>
        (a.virtualAccount.expectedAmountCents, a.figures)) =
      some [some (1000, 0, 1000, false), some (1000, 400, 1000, false)] := by
    decide +kernel
  obtain ⟨⟨w, hs⟩, hw, hl⟩ := Option.map_eq_some_iff.mp h
  refine ⟨w, hs, HistoryRun.of_exec routedViewStep_of_check .refl hw, ?_⟩
  have hview : ∀ i received, (w.view i).map (fun a =>
      (a.virtualAccount.expectedAmountCents, a.figures)) = some (1000, received, 1000, false) →
      received ≠ 1000 → ∃ s a, w.sessions[i]? = some s ∧ s.prog = .ret (.ok (.payment a)) ∧
        a.virtualAccount.expectedAmountCents ≤ a.credited ∧ a.isFullySettled = false ∧
        ¬ a.Balances := by
    intro i received hfigures hne
    obtain ⟨a, ha, hfigures⟩ := Option.map_eq_some_iff.mp hfigures
    simp only [VanWithLedger.figures, Prod.mk.injEq] at hfigures
    obtain ⟨hexpected, hreceived, hcredited, hsettled⟩ := hfigures
    obtain ⟨s, hi, hk⟩ := ViewWorld.view_some ha
    refine ⟨s, a, hi, hk, by omega, hsettled, fun hbalances => hne ?_⟩
    rw [← hreceived, ← hcredited]
    exact hbalances.received
  simp only [List.map_cons, List.map_nil, List.cons.injEq] at hl
  intro i hi
  rcases List.mem_pair.mp hi with rfl | rfl
  · exact hview 4 0 hl.1 (by decide)
  · exact hview 5 400 hl.2.1 (by decide)

end Vanguard
