import Vanguard.Proofs.Runs

/-!
# `Vanguard.Proofs.StateMachine`: the transition table and the writes of the status column

`validTransitions` is the table of `state-machine.ts`. Two laws say that the committed
writes of `invoices.status` follow it:

* `LawfulStatus`, for runs of calls that do not overlap. The settle branch of
  `recordPayment` writes `REPAID` without a look at the table. `lawfulStatus_of_run` proves
  the law for the runs in which an account is settled only on a funded invoice, and
  `settle_breaks_transition_table` is a run that breaks it;
* `GuardedStatus`, for concurrent approvals, financing requests and assessments. Their
  guards look at a row read before the transaction. `guardedStatus_of_run` proves the law
  for the runs in which the status has not changed since then, and
  `two_approvals_both_commit` is a run that breaks it.
-/

set_option autoImplicit false

namespace Vanguard

open ReadCommitted Database

/-! ### The guards -/

/-- The invoice of a call whose guard looks at a row read before the transaction. -/
def Call.invoiceId? : Call → Option Uuid
  | .approveInvoice cmd _ => some cmd.invoiceId
  | .requestFinancing cmd _ => some cmd.invoiceId
  | .assessAndRecord cmd _ => some cmd.invoiceId
  | _ => none

/-- Such a call: an approval, a financing request or an assessment. -/
def GuardedCall (c : Call) : Prop := c.invoiceId?.isSome = true

/-- The guard of such a call puts the new status on an edge from the one it has read. -/
theorem Rewrites.edge_of_read {I : Interference Database RowVersion} {born seen t : Log}
    {rows : List RowVersion} {c : Call} {r r' : Invoice} (h : Rewrites I born seen t rows c r r')
    (hc : GuardedCall c) : I.rel [] seen t ∧
      ∃ inv, seen.now.invoice r.id = some inv ∧ r'.status ∈ validTransitions inv.status := by
  cases h with
  | approved inv _ _ hseen hinv _ hstatus => exact ⟨hseen, inv, hinv, hstatus⟩
  | requested inv _ hseen hinv hstatus => exact ⟨hseen, inv, hinv, hstatus⟩
  | rejected inv _ hseen hinv hstatus =>
      refine ⟨hseen, inv, hinv, ?_⟩
      rw [hstatus]
      exact List.mem_cons_of_mem _ List.mem_cons_self
  | submitted => exact nomatch hc
  | repaid => exact nomatch hc

/-- When nobody interferes, that status is the one of the row that is overwritten. -/
theorem Rewrites.edge_of_alone {born seen t : Log} {rows : List RowVersion} {c : Call}
    {r r' : Invoice} (h : Rewrites Interference.alone born seen t rows c r r')
    (hc : GuardedCall c) (hr : t.now.invoice r.id = some r) :
    seen = t ∧ r'.status ∈ validTransitions r.status := by
  obtain ⟨hseen, inv, hinv, hedge⟩ := h.edge_of_read hc
  obtain rfl : seen = t := hseen
  rw [hr] at hinv
  obtain rfl := Option.some.inj hinv
  exact ⟨rfl, hedge⟩

/-- When nobody interferes, a submission rewrites the draft that it has inserted. -/
theorem draft_of_alone {cmd : SubmitInvoiceCommand} {env : Env} {u t : Log} {r : Invoice}
    (h : Interference.alone.rel [] (u.commit [.invoice (cmd.draft env)]) t)
    (hid : r.id = env.uuid) (hr : t.now.invoice r.id = some r) : r = cmd.draft env := by
  obtain rfl : u.commit [.invoice (cmd.draft env)] = t := h
  have hdraft : (u.commit [.invoice (cmd.draft env)]).now.invoice r.id =
      some (cmd.draft env) := by
    simp [SubmitInvoiceCommand.draft, hid]
  exact Option.some.inj (hr.symm.trans hdraft)

/-! ### Calls that do not overlap -/

/-- A committed change of a status is an edge of the table. A terminal status does not
change, and `REPAID` comes after `FUNDED`. -/
structure LawfulStatus (t : Log) (rows : List RowVersion) : Prop where
  edge : ∀ id r r', t.now.invoice id = some r → (t.commit rows).now.invoice id = some r' →
    r.status ≠ r'.status → r'.status ∈ validTransitions r.status
  terminal : ∀ id r r', t.now.invoice id = some r → (t.commit rows).now.invoice id = some r' →
    r.status ∈ [InvoiceStatus.repaid, .defaulted, .cancelled] → r'.status = r.status
  repaid : ∀ id r r', t.now.invoice id = some r → (t.commit rows).now.invoice id = some r' →
    r.status ≠ .repaid → r'.status = .repaid → r.status = .funded

/-- The edges imply the rest. -/
theorem lawful_of_edge {t : Log} {rows : List RowVersion}
    (h : ∀ id r r', t.now.invoice id = some r → (t.commit rows).now.invoice id = some r' →
      r.status ≠ r'.status → r'.status ∈ validTransitions r.status) : LawfulStatus t rows where
  edge := h
  terminal id r r' hr hr' hs := by
    by_contra hne
    have he := h id r r' hr hr' (Ne.symm hne)
    cases hst : r.status <;> simp_all [validTransitions]
  repaid id r r' hr hr' hne hs := by
    have he := h id r r' hr hr' (fun heq => hne (heq.trans hs))
    rw [hs] at he
    cases hst : r.status <;> simp_all [validTransitions]

/-- The payment settles the account `v`: both layers let it pass, and it completes the
expected amount. -/
structure SettlesAccount (db : Database) (cmd : RecordPaymentCommand) (v : VirtualAccount) :
    Prop where
  account : db.vanByNumber cmd.accountNumber = some v
  active : v.status = .active
  new : isDuplicate (db.entriesOf v.id) cmd.idempotencyKey = false
  fresh : ∀ e ∈ db.ledgerEntries, e.idempotencyKey ≠ cmd.idempotencyKey
  positive : 0 < cmd.amountCents
  full : (v.receive cmd.amountCents).paidInFull

/-- A payment that settles its account finds the invoice `FUNDED`, or already `REPAID`. -/
def FundedWhenSettled (c : Call) (db : Database) : Prop :=
  ∀ cmd v r, c = .recordPayment cmd → SettlesAccount db cmd v →
    db.invoice v.invoiceId = some r → r.status = .funded ∨ r.status = .repaid

/-- The steps of complete calls of which each satisfies `FundedWhenSettled` at its start. -/
def FundedStep (w : ServiceWorld) (a : Step) : Prop :=
  SerialStep w a ∧ ∀ c, a = .spawn c → FundedWhenSettled c w.db

/-- One commit of a call that nobody interferes with. -/
theorem Commit.lawful {born seen t : Log} {c : Call} {rows : List RowVersion}
    (h : Commit Interference.alone born seen t c rows) (hc : FundedWhenSettled c born.now) :
    LawfulStatus t rows := by
  refine lawful_of_edge fun id r r' hr hr' hne => ?_
  cases h.invoice_change id with
  | kept hsame _ =>
      rw [hsame, hr] at hr'
      cases hr'
      exact absurd rfl hne
  | draft _ _ _ _ _ hnone =>
      rw [hr] at hnone
      cases hnone
  | rewritten x x' hx hx' hw =>
      obtain rfl : r = x := Option.some.inj (hr.symm.trans hx)
      obtain rfl : r' = x' := Option.some.inj (hr'.symm.trans hx')
      have hid : r.id = id := invoice_id hr
      by_cases hguard : GuardedCall c
      · exact (hw.edge_of_alone hguard (hid ▸ hr)).2
      cases hw with
      | submitted env u now hbefore henv =>
          rw [draft_of_alone hbefore henv (hid ▸ hr)]
          exact List.mem_cons_self
      | repaid van v now hpaying hfull hvan =>
          obtain rfl : born = seen := hpaying.hborn
          obtain rfl : born = t := hpaying.hseen
          obtain ⟨u, hu, -, hnew⟩ := hpaying.hnew
          obtain rfl : born = u := hu
          obtain rfl : v = van := by
            have hread := (vanByNumber_some hpaying.hvan).1
            rw [hpaying.hrow] at hread
            exact Option.some.inj hread
          -- The settle branch looks at no status: the condition on the run decides.
          have hsettles : SettlesAccount born.now _ v :=
            ⟨hpaying.hvan, hpaying.hactive, hnew, hpaying.hkey, hpaying.hamount, hfull⟩
          rcases hc _ v r rfl hsettles (hvan ▸ hid ▸ hr) with hfunded | hrepaid
          · rw [hfunded]
            exact List.mem_cons_self
          · exact absurd hrepaid hne
      | approved | requested | rejected => exact absurd rfl hguard

/-- Complete calls change statuses along the table when every account is settled on a funded
invoice. -/
theorem lawfulStatus_of_run {db : Database} {w : ServiceWorld}
    (h : Runs FundedStep (.start db) w) : Timeline.Commits LawfulStatus w.timeline := by
  refine Runs.commit_induction (I := Interference.alone)
    (C := fun c born => FundedWhenSettled c born.now) (Or.inr fun _ _ ha => ha.1)
    (fun _ c ha => ha.2 c rfl) (Timeline.commits_start _ _) ?_ h
  intro w i env s _ _ _ hC hc ih
  exact Timeline.commits_commit ih (hc.lawful hC)

/-- The last commit of a log as two rows of one invoice. -/
theorem rows_of_lastChange {t : Log} {id : Uuid} {s s' : InvoiceStatus}
    (h : lastChange t id = some (some s, some s')) :
    ∃ u rows r r', t = .commit u rows ∧ u.now.invoice id = some r ∧
      (u.commit rows).now.invoice id = some r' ∧ r.status = s ∧ r'.status = s' := by
  cases t with
  | start db => cases h
  | commit u rows =>
      simp only [lastChange, Option.some.injEq, Prod.mk.injEq] at h
      obtain ⟨r, hr, hs⟩ := Option.map_eq_some_iff.mp h.1
      obtain ⟨r', hr', hs'⟩ := Option.map_eq_some_iff.mp h.2
      exact ⟨u, rows, r, r', rfl, hr, hr', hs, hs'⟩

/-- Where the last commit wrote the invoice, it has a version of it. -/
theorem mem_of_lastWrites {u : Log} {rows : List RowVersion} {id : Uuid}
    (h : lastWrites (u.commit rows) id = true) : ∃ x, .invoice x ∈ rows ∧ x.id = id := by
  obtain ⟨row, hrow, hid⟩ := List.any_eq_true.mp h
  cases row with
  | invoice r => exact ⟨r, hrow, by simpa using hid⟩
  | virtualAccount v => cases hid
  | ledgerEntry e => cases hid
  | invoiceEvent e => cases hid

/-- A check that is enough for `FundedStep`: a payment goes to an account of a funded
invoice. -/
def fundedCheck (w : ServiceWorld) : Step → Bool
  | .spawn (.recordPayment cmd) => w.quiescent &&
    (w.db.vanByNumber cmd.accountNumber).all fun v => w.db.statusOf v.invoiceId == some .funded
  | .spawn _ => w.quiescent
  | .step _ _ => true

/-- A step that passes `fundedCheck` meets `FundedStep`. -/
theorem fundedStep_of_check (w : ServiceWorld) (a : Step) (h : fundedCheck w a = true) :
    FundedStep w a := by
  cases a with
  | step i env => exact ⟨fun _ hc => (nomatch hc), fun _ hc => nomatch hc⟩
  | spawn c =>
      cases c with
      | recordPayment cmd =>
          simp only [fundedCheck, Bool.and_eq_true] at h
          refine ⟨fun _ _ => h.1, ?_⟩
          rintro c hc cmd' v r rfl hs hr
          cases hc
          have hf := h.2
          simp only [hs.account, Option.all_some, statusOf, hr, Option.map_some, beq_iff_eq,
            Option.some.injEq] at hf
          exact Or.inl hf
      | _ => exact ⟨fun _ _ => h, fun _ hc cmd _ _ he => by subst he; cases hc⟩

/-- The sample account with its invoice moved on to `FUNDED`. -/
def sampleFunded : Database :=
  let db := sampleAfter stepsToAccount
  match db.invoice sampleId with
  | some r => db.write (.invoice (r.setStatus .funded 1))
  | none => db

/-- A payment of the full amount on a funded invoice. -/
theorem lawfulStatus_of_funded_payment : ∃ w : ServiceWorld,
    Runs FundedStep (.start sampleFunded) w ∧
      lastChange w.timeline sampleId = some (some .funded, some .repaid) ∧
      Timeline.Commits LawfulStatus w.timeline := by
  have h : (play fundedCheck (.start sampleFunded)
      (.spawn (.recordPayment (samplePayment 1000 "k")) :: steps 0 17)).map
      (fun w => lastChange w.timeline sampleId) =
      some (some (some .funded, some .repaid)) := by decide +kernel
  obtain ⟨w, hrun, hl⟩ := exists_run_of_play fundedStep_of_check h
  exact ⟨w, hrun, hl, lawfulStatus_of_run hrun⟩

/-- The life cycle of one invoice in complete calls: submit, approve, request financing,
create the account, and one payment of the full amount. The payment moves the invoice from
`FINANCING_REQUESTED` to `REPAID`. -/
theorem settle_breaks_transition_table : ∃ w : ServiceWorld,
    Runs SerialStep (.start sampleDb) w ∧ w.quiescent = true ∧
      ¬ Timeline.Commits LawfulStatus w.timeline := by
  have h : (play serialCheck (.start sampleDb) (stepsToAccount ++
      .spawn (.recordPayment (samplePayment 1000 "k")) :: steps 4 17)).map
      (fun w => (w.quiescent, lastChange w.timeline sampleId)) =
      some (true, some (some .financingRequested, some .repaid)) := by decide +kernel
  obtain ⟨w, hrun, hl⟩ := exists_run_of_play serialStep_of_check h
  simp only [Prod.mk.injEq] at hl
  refine ⟨w, hrun, hl.1, fun hlaw => ?_⟩
  obtain ⟨u, rows, r, r', ht, hr, hr', hs, hs'⟩ := rows_of_lastChange hl.2
  have hedge := (hlaw u rows (ht ▸ le_refl _)).edge sampleId r r' hr hr' (by rw [hs, hs']; decide)
  rw [hs, hs'] at hedge
  revert hedge
  decide

/-! ### Concurrent calls -/

/-- The steps of guarded calls. -/
def GuardedStep (_ : ServiceWorld) (a : Step) : Prop := ∀ c, a = .spawn c → GuardedCall c

/-- A committed write of a status is an edge of the table from the status it overwrites. -/
def GuardedStatus (t : Log) (rows : List RowVersion) : Prop :=
  ∀ id r r', (∃ x, .invoice x ∈ rows ∧ x.id = id) → t.now.invoice id = some r →
    (t.commit rows).now.invoice id = some r' → r'.status ∈ validTransitions r.status

/-- When a step commits a new version of an invoice, its status is still the one that the
call has read. -/
def UnchangedSinceRead (w : ServiceWorld) (a : Step) : Prop :=
  ∀ i env s x seen, a = .step i env → w.sessions[i]? = some s → s.seen = some seen →
    .invoice x ∈ w.batch postgres i env → w.db.statusOf x.id = seen.now.statusOf x.id

/-- The steps of guarded calls that find the status unchanged. -/
def FreshGuardStep (w : ServiceWorld) (a : Step) : Prop :=
  GuardedStep w a ∧ UnchangedSinceRead w a

/-- One commit of a guarded call. -/
theorem Commit.guarded {born seen t : Log} {c : Call} {rows : List RowVersion}
    (h : Commit Interference.concurrent born seen t c rows) (hc : GuardedCall c)
    (hfresh : ∀ x, .invoice x ∈ rows → t.now.statusOf x.id = seen.now.statusOf x.id) :
    GuardedStatus t rows := by
  rintro id r r' ⟨x, hx, rfl⟩ hr hr'
  cases h.invoice_change x.id with
  | kept _ hrows => exact absurd rfl (hrows x hx)
  | draft cmd actorId env heq =>
      subst heq
      exact nomatch hc
  | rewritten y y' hy hy' hw =>
      obtain rfl : r = y := Option.some.inj (hr.symm.trans hy)
      obtain rfl : r' = y' := Option.some.inj (hr'.symm.trans hy')
      obtain ⟨-, inv, hinv, hedge⟩ := hw.edge_of_read hc
      -- The status that is overwritten is the one that the guard has read.
      have hsame : r.status = inv.status := by
        have hstatus := hfresh x hx
        rw [← invoice_id hr, statusOf, statusOf, hinv, invoice_id hr, hr] at hstatus
        exact Option.some.inj hstatus
      rw [hsame]
      exact hedge

/-- Concurrent guarded calls write statuses along the table when each finds the status
unchanged. -/
theorem guardedStatus_of_run {db : Database} {w : ServiceWorld}
    (h : Runs FreshGuardStep (.start db) w) : Timeline.Commits GuardedStatus w.timeline := by
  refine Runs.commit_induction (C := fun c _ => GuardedCall c)
    (Or.inl Interference.concurrent_shared) (fun _ c ha => ha.1 c rfl)
    (Timeline.commits_start _ _) ?_ h
  intro w i env s _ hok hs hC hc ih
  refine Timeline.commits_commit ih (hc.guarded hC fun x hx => ?_)
  cases hseen : s.seen with
  | none => rfl
  | some seen => exact hok.2 i env s x seen rfl hs hseen hx

/-- The check of `GuardedStep`. -/
def guardedCheck (_ : ServiceWorld) : Step → Bool
  | .spawn c => c.invoiceId?.isSome
  | .step _ _ => true

/-- A step that passes `guardedCheck` meets `GuardedStep`. -/
theorem guardedStep_of_check (w : ServiceWorld) (a : Step) (h : guardedCheck w a = true) :
    GuardedStep w a := by
  rintro c rfl
  exact h

/-- The check of `FreshGuardStep`. -/
def freshGuardCheck (w : ServiceWorld) : Step → Bool
  | .spawn c => c.invoiceId?.isSome
  | .step i env => (w.sessions[i]?).all fun s => s.seen.all fun seen =>
    (w.batch postgres i env).all fun
      | .invoice x => w.db.statusOf x.id == seen.now.statusOf x.id
      | _ => true

/-- A step that passes `freshGuardCheck` meets `FreshGuardStep`. -/
theorem freshGuardStep_of_check (w : ServiceWorld) (a : Step)
    (h : freshGuardCheck w a = true) : FreshGuardStep w a := by
  cases a with
  | spawn c => exact ⟨guardedStep_of_check w _ h, fun _ _ _ _ _ ha => nomatch ha⟩
  | step i env =>
      refine ⟨fun _ hc => (nomatch hc), ?_⟩
      rintro i' env' s x seen ha hs hseen hx
      cases ha
      simp only [freshGuardCheck, hs, hseen, Option.all_some, List.all_eq_true] at h
      simpa using h _ hx

/-- An approval and a financing request that are in progress at the same time and do not
disturb each other. -/
theorem guardedStatus_of_overlapping_calls : ∃ w : ServiceWorld,
    Runs FreshGuardStep (.start (sampleAfter stepsToSubmitted)) w ∧
      lastChange w.timeline sampleId = some (some .buyerApproved, some .financingRequested) ∧
      Timeline.Commits GuardedStatus w.timeline := by
  have h : (play freshGuardCheck (.start (sampleAfter stepsToSubmitted))
      (.spawn sampleApprove :: .spawn sampleRequest :: steps 0 8 ++ steps 1 2 ++ steps 0 3 ++
        steps 1 6)).map (fun w => lastChange w.timeline sampleId) =
      some (some (some .buyerApproved, some .financingRequested)) := by decide +kernel
  obtain ⟨w, hrun, hl⟩ := exists_run_of_play freshGuardStep_of_check h
  exact ⟨w, hrun, hl, guardedStatus_of_run hrun⟩

/-- Two approvals of one invoice read it as `SUBMITTED`, and both commit. -/
theorem two_approvals_both_commit : ∃ w : ServiceWorld,
    Runs GuardedStep (.start (sampleAfter stepsToSubmitted)) w ∧ w.quiescent = true ∧
      ¬ Timeline.Commits GuardedStatus w.timeline := by
  have h : (play guardedCheck (.start (sampleAfter stepsToSubmitted))
      (.spawn sampleApprove :: .spawn sampleApprove :: steps 0 1 ++ steps 1 1 ++ steps 0 10 ++
        steps 1 10)).map
      (fun w => (w.quiescent, lastWrites w.timeline sampleId, lastChange w.timeline sampleId)) =
      some (true, true, some (some .buyerApproved, some .buyerApproved)) := by decide +kernel
  obtain ⟨w, hrun, hl⟩ := exists_run_of_play guardedStep_of_check h
  simp only [Prod.mk.injEq] at hl
  refine ⟨w, hrun, hl.1, fun hguard => ?_⟩
  obtain ⟨u, rows, r, r', ht, hr, hr', hs, hs'⟩ := rows_of_lastChange hl.2.2
  have hwrites := hl.2.1
  rw [ht] at hwrites
  have hedge := hguard u rows (ht ▸ le_refl _) sampleId r r' (mem_of_lastWrites hwrites) hr hr'
  rw [hs, hs'] at hedge
  revert hedge
  decide

end Vanguard
