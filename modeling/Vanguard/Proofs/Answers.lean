import Vanguard.Proofs.AuditTrail

/-!
# `Vanguard.Proofs.Answers`: every answer of a service is true

A caller learns of the database what its call answers. `Call.Answered` says what the answer
means, for a call that has started at the moment `born` of a run.

* A reply holds of a committed database of a moment of the call (`Reply.Holds`): the row in the
  reply is the committed one, it carries what the command asks for, and the event or the ledger
  entry of the call is there.
* An error is in the table `Refusal`, and the fact that it reports was true at a committed moment
  of the call. So a refusal is never about something that no moment has shown.

`answers_of_run` is the result, for every finished call of every run. The trace of the session
gives the batches and the facts (`Call.obeys`), and what no commit undoes gives the columns
(`Runs.audit`).
-/

set_option autoImplicit false

namespace Vanguard

open ReadCommitted Database

/-! ### What an answer means -/

/-- The invoice is the one that the command asks for, as its columns keep it. -/
structure SubmitInvoiceCommand.Of (cmd : SubmitInvoiceCommand) (r : Invoice) : Prop where
  invoiceNumber : r.invoiceNumber = cmd.invoiceNumber
  supplierId : r.supplierId = cmd.supplierId
  buyerId : r.buyerId = cmd.buyerId
  amountCents : r.amountCents = cmd.amountCents
  currency : r.currency = charColumn 3 cmd.currency
  dueDate : r.dueDate = dateColumn cmd.dueDate

/-- What a reply says about a database. -/
def Reply.Holds (db : Database) : Call → Reply → Prop
  | .submitInvoice cmd actorId, .invoice r =>
    db.invoice r.id = some r ∧ r.status = .submitted ∧ cmd.Of r ∧
      ∃ env now, env.uuid = r.id ∧ submittedEvent actorId (cmd.draft env) now ∈ db.invoiceEvents
  | .approveInvoice cmd actorId, .invoice r =>
    db.invoice cmd.invoiceId = some r ∧ r.status = .buyerApproved ∧ r.buyerId = cmd.buyerId ∧
      r.buyerSignature = some cmd.buyerSignature ∧
      ∃ approvedAt now, approvedEvent cmd actorId approvedAt now ∈ db.invoiceEvents
  | .requestFinancing cmd actorId, .invoice r =>
    db.invoice cmd.invoiceId = some r ∧ r.status = .financingRequested ∧
      r.supplierId = cmd.supplierId ∧ r.buyerSignature ≠ none ∧
      ∃ requestedAt now, requestedEvent cmd actorId r.amountCents requestedAt now ∈
        db.invoiceEvents
  | .assessAndRecord cmd actorId, .assessment result =>
    (result.decision = .reject → db.statusOf cmd.invoiceId = some .cancelled) ∧
      ∃ assessedAt now, result = assessInvoiceRisk cmd assessedAt ∧
        assessmentEvent cmd actorId assessedAt now ∈ db.invoiceEvents
  | .createVan cmd, .van v =>
    db.van v.id = some v ∧ v.invoiceId = cmd.invoiceId ∧
      v.expectedAmountCents = cmd.expectedAmountCents ∧ v.receivedAmountCents = 0 ∧
      v.status = .active ∧ (∃ e ∈ db.debitsOf v.id, e.amountCents = cmd.expectedAmountCents ∧
        e.idempotencyKey = advanceKey cmd.invoiceText) ∧
      ∃ now, vanCreatedEvent v now ∈ db.invoiceEvents
  | .recordPayment cmd, .payment p =>
    db.van p.virtualAccount.id = some p.virtualAccount ∧
      p.virtualAccount.accountNumber = cmd.accountNumber ∧
      (∃ e ∈ db.creditsOf p.virtualAccount.id, e.amountCents = cmd.amountCents ∧
        e.idempotencyKey = cmd.idempotencyKey) ∧
      (p.virtualAccount.paidInFull → p.virtualAccount.status = .settled) ∧
      p.isFullySettled = (p.virtualAccount.status == .settled)
  | _, _ => False

/-- The ledger entries in a reply are the ones of its account. -/
def Reply.Lists (db : Database) : Reply → Prop
  | .payment p => p.ledgerEntries.Perm (db.entriesOf p.virtualAccount.id)
  | _ => True

/-- What the answer of a call means. -/
def Call.Answered (c : Call) (born now : Log) : Except JsError Reply → Prop
  | .ok b => (During born now fun db => b.Holds db c) ∧ During born now fun db => b.Lists db
  | .error e => Refusal (During born now) c e

/-! ### The batches of a run -/

section
variable {I : Interference Database RowVersion} {born seen t : Log} {c : Call}
  {rows : List RowVersion}

/-- Only an approval has the event of an approval, and its batch leaves the signature of the
event. -/
theorem Commit.signs (hc : Commit I born seen t c rows) {cmd : ApproveInvoiceCommand}
    {actorId : Uuid} {approvedAt now : Timestamp}
    (he : .invoiceEvent (approvedEvent cmd actorId approvedAt now) ∈ rows) {r : Invoice}
    (hr : invoiceTable.Sets rows r) (hid : r.id = cmd.invoiceId) :
    r.buyerSignature = some cmd.buyerSignature := by
  cases hc with
  | @approved cmd' actorId' inv r' approvedAt' now' _ _ _ _ _ _ hrow =>
      have he : approvedEvent cmd actorId approvedAt now =
          approvedEvent cmd' actorId' approvedAt' now' := by simpa using he
      have hinvoice : cmd.invoiceId = cmd'.invoiceId := congrArg InvoiceEvent.invoiceId he
      have hsignature : cmd.buyerSignature = cmd'.buyerSignature := by
        have := congrArg InvoiceEvent.payload he
        simp only [approvedEvent, EventPayload.buyerApproved.injEq] at this
        exact this.2.1
      have hset : some ((r'.sign cmd'.buyerSignature now').setStatus .buyerApproved now') =
          some r := by
        rw [← hr t.now]
        show _ = (writeAll t.now _).invoice r.id
        simp [hid.trans hinvoice, invoice_id hrow]
      cases hset
      rw [hsignature]
      rfl
  | draft => simp at he
  | submitted => simp [approvedEvent, submittedEvent] at he
  | requested => simp [approvedEvent, requestedEvent] at he
  | assessed =>
      simp [approvedEvent, assessmentEvent, RiskAssessmentResult.payload] at he
  | rejected => simp [approvedEvent, assessmentEvent, RiskAssessmentResult.payload] at he
  | created => simp [approvedEvent, vanCreatedEvent] at he
  | paid => simp at he
  | settled =>
      simp only [List.mem_cons, List.cons_append, List.mem_append, List.not_mem_nil, or_false,
        reduceCtorEq, false_or, RowVersion.invoiceEvent.injEq] at he
      rcases he with he | he
      · obtain ⟨_, -, h⟩ := mem_updateRow he
        cases h
      · simp [approvedEvent, repaidEvent] at he

end

/-! ### The columns of two moments -/

section
variable {u u' t : Log}

/-- Two versions of an invoice in one log have these columns in common. -/
theorem Extending.invoice_columns (ht : Extending t) (hu : u ≤ t) (hu' : u' ≤ t) {id : Uuid}
    {r r' : Invoice} (hr : u.now.invoice id = some r) (hr' : u'.now.invoice id = some r') :
    r'.invoiceNumber = r.invoiceNumber ∧ r'.supplierId = r.supplierId ∧
      r'.buyerId = r.buyerId ∧ r'.amountCents = r.amountCents ∧ r'.currency = r.currency ∧
      r'.dueDate = r.dueDate := by
  -- Both are earlier versions of the last one.
  have h := ht.extends hu
  have h' := ht.extends hu'
  obtain ⟨l, hl, hrev⟩ := h.invoice id r hr
  obtain ⟨l', hl', hrev'⟩ := h'.invoice id r' hr'
  cases hl.symm.trans hl'
  obtain ⟨hcurrency, hdueDate⟩ := h.invoiceColumns id r l hr hl
  obtain ⟨hcurrency', hdueDate'⟩ := h'.invoiceColumns id r' l hr' hl
  exact ⟨hrev'.invoiceNumber.symm.trans hrev.invoiceNumber,
    hrev'.supplierId.symm.trans hrev.supplierId, hrev'.buyerId.symm.trans hrev.buyerId,
    hrev'.amountCents.symm.trans hrev.amountCents, hcurrency'.symm.trans hcurrency,
    hdueDate'.symm.trans hdueDate⟩

/-- Two versions of an account in one log have one number. -/
theorem Extending.accountNumber (ht : Extending t) (hu : u ≤ t) (hu' : u' ≤ t) {id : Uuid}
    {v v' : VirtualAccount} (hv : u.now.van id = some v) (hv' : u'.now.van id = some v') :
    v'.accountNumber = v.accountNumber := by
  obtain ⟨l, hl, hvev⟩ := (ht.extends hu).van id v hv
  obtain ⟨l', hl', hvev'⟩ := (ht.extends hu').van id v' hv'
  cases hl.symm.trans hl'
  exact hvev'.accountNumber.symm.trans hvev.accountNumber

end

/-! ### The replies -/

/-- The call has committed a batch as `p` says. -/
def Committed (born now : Log) (p : List RowVersion → Prop) : Prop :=
  ∃ u rows, born ≤ u ∧ u.commit rows ≤ now ∧ p rows

/-- Every batch of the log is one of a call. -/
def OfCalls (t : Log) : Prop :=
  Timeline.Commits (fun u rows => ∃ born seen c, Commit .concurrent born seen u c rows) t

section
variable {born t : Log} {c : Call} {b : Reply}

/-- A reply that is founded on the log is answered truly. -/
theorem Replied.answered (haudit : ∀ u ≤ t, Audited u) (hcalls : OfCalls t)
    (h : Replied (During born t) (Committed born t) c b) : c.Answered born t (.ok b) := by
  have hext := (haudit t (le_refl t)).extending
  have lists : ∀ {u rows}, born ≤ u → u.commit rows ≤ t → During born t fun _ => True :=
    fun hborn hu => ⟨t, hborn.trans ((Timeline.le_commit _ (le_refl _)).trans hu), le_refl t,
      trivial⟩
  cases h with
  | @submitted cmd actorId env r now hdraft hrow hid hstatus =>
      obtain ⟨u₀, rows₀, -, hu₀, rfl⟩ := hdraft
      obtain ⟨u, rows, hborn, hu, hr, he⟩ := hrow
      have hfirst : (u₀.commit [.invoice (cmd.draft env)]).now.invoice r.id =
          some (cmd.draft env) := by simp [hid, SubmitInvoiceCommand.draft]
      obtain ⟨h₁, h₂, h₃, h₄, h₅, h₆⟩ := hext.invoice_columns hu₀ hu hfirst (hr u.now)
      exact ⟨⟨u.commit rows, Timeline.le_commit _ hborn, hu, hr u.now, hstatus,
        ⟨h₁, h₂, h₃, h₄, h₅, h₆⟩, env, now, hid.symm, mem_invoiceEvents_commit he⟩, lists hborn hu⟩
  | @approved cmd actorId r approvedAt now hrow hid hstatus =>
      obtain ⟨u, rows, hborn, hu, hr, he⟩ := hrow
      obtain ⟨_, _, _, hc⟩ := hcalls u rows hu
      have hmem := mem_invoiceEvents_commit (t := u) he
      obtain ⟨-, r', hr', -, hbuyer, -⟩ := (haudit _ hu).truthful _ hmem
      have hfound : (u.commit rows).now.invoice cmd.invoiceId = some r := hid ▸ hr u.now
      cases hr'.symm.trans hfound
      exact ⟨⟨u.commit rows, Timeline.le_commit _ hborn, hu, hfound, hstatus, hbuyer.symm,
        hc.signs he hr hid, approvedAt, now, hmem⟩, lists hborn hu⟩
  | @requested cmd actorId r amountCents requestedAt now hrow hid hstatus =>
      obtain ⟨u, rows, hborn, hu, hr, he⟩ := hrow
      have hmem := mem_invoiceEvents_commit (t := u) he
      obtain ⟨-, r', hr', -, hsupplier, rfl, hsig⟩ := (haudit _ hu).truthful _ hmem
      have hfound : (u.commit rows).now.invoice cmd.invoiceId = some r := hid ▸ hr u.now
      cases hr'.symm.trans hfound
      exact ⟨⟨u.commit rows, Timeline.le_commit _ hborn, hu, hfound, hstatus, hsupplier.symm,
        hsig, requestedAt, now, hmem⟩, lists hborn hu⟩
  | @assessed cmd actorId assessedAt now hrow =>
      obtain ⟨u, rows, hborn, hu, he, hreject⟩ := hrow
      refine ⟨⟨u.commit rows, Timeline.le_commit _ hborn, hu, fun hd => ?_, assessedAt, now, rfl,
        mem_invoiceEvents_commit he⟩, lists hborn hu⟩
      obtain ⟨r, hr, hid, hstatus⟩ := hreject hd
      have hfound : (u.commit rows).now.invoice cmd.invoiceId = some r := hid ▸ hr u.now
      rw [statusOf, hfound, Option.map_some, hstatus]
  | @created cmd van number start hrow hinvoice hexpected hreceived hstatus =>
      obtain ⟨u, rows, hborn, hu, rfl⟩ := hrow
      refine ⟨⟨_, Timeline.le_commit _ hborn, hu, by simp, hinvoice, hexpected, hreceived,
        hstatus, ⟨(cmd.debit number van.id).row start, ?_, rfl, rfl⟩, start.now,
        mem_invoiceEvents_commit (by simp)⟩, lists hborn hu⟩
      simp [debitsOf, CreateLedgerEntryInput.row, CreateVanCommand.debit]
  | @paid cmd van start p hvan hrow hid hfull hentries hsettled =>
      obtain ⟨u₀, -, hu₀, hvan⟩ := hvan
      obtain ⟨u, rows, hborn, hu, he, hv⟩ := hrow
      obtain ⟨hvan, hnumber⟩ := vanByNumber_some hvan
      refine ⟨⟨u.commit rows, Timeline.le_commit _ hborn, hu, hv u.now, ?_,
        ⟨(cmd.credit van.id).row start, ?_, rfl, rfl⟩, hfull, hsettled⟩, ?_⟩
      · exact (hext.accountNumber hu₀ hu hvan (hid ▸ hv u.now)).trans hnumber
      · have hledger : (cmd.credit van.id).row start ∈ (u.commit rows).now.ledgerEntries := by
          rw [Timeline.now_commit, ledgerEntries_writeAll]
          exact List.mem_append_right _ (mem_writtenEntries.mpr he)
        refine List.mem_filter.mpr ⟨hledger, ?_⟩
        simp [hid, CreateLedgerEntryInput.row, RecordPaymentCommand.credit]
      · show During born t fun db => p.ledgerEntries.Perm (db.entriesOf p.virtualAccount.id)
        rw [hid]
        exact hentries

end

/-! ### The runs -/

/-- Every log of a run is one of calls. -/
theorem Runs.ofCalls {ok : ServiceWorld → Step → Prop} {db : Database} {w : ServiceWorld}
    (h : Runs ok (.start db) w) : OfCalls w.timeline := by
  refine Runs.commit_induction (C := fun _ _ => True) (Or.inl Interference.concurrent_shared)
    (fun _ _ _ => trivial) (Timeline.commits_start _ db) (fun w i env s _ _ _ _ hc ih => ?_) h
  exact Timeline.commits_commit ih ⟨_, _, _, hc⟩

/-- In every run of the HTTP operations, what a finished call has answered is true: a reply holds
of a committed database of a moment of the call, and an error reports a fact of such a one. -/
theorem answers_of_run {db : Database} (hdb : db.Initial) {w : ServiceWorld}
    (h : Runs RoutedStep (.start db) w)
    {s : Session Database RowVersion Sql Ext Env JsError Call (Except JsError Reply) Sql.Rows
      Ext.Res} (hs : s ∈ w.sessions) {a : Except JsError Reply} (ha : s.prog = .ret a) :
    s.call.Answered s.born w.timeline a := by
  obtain ⟨tr, hin, hanswers⟩ := h.orderly.answered hs ha
  have hsaw : ∀ p, tr.Saw p → During s.born w.timeline p := fun _ => hin.saw
  have hdid : ∀ p, tr.Did p → Committed s.born w.timeline p := by
    rintro p ⟨rows, hrows, hp⟩
    obtain ⟨u, hborn, hu⟩ := hin.done rows hrows
    exact ⟨u, rows, hborn, hu, hp⟩
  cases a with
  | error e => exact Refusal.mono hsaw hanswers
  | ok b => exact (Replied.mono hsaw hdid hanswers).answered (Runs.audit hdb h) h.ofCalls

/-- Two requests with one payment overlap: both have found no entry with the key, and the second
one is refused after the first one has committed. -/
theorem answers_of_payments : ∃ w : ServiceWorld, Runs RoutedStep (.start sampleDb) w ∧
    w.sessions.map (fun s => s.prog.ended) =
      [some none, some none, some none, some none, some none,
        some (some (.duplicatePayment "k1"))] ∧
    ∀ s ∈ w.sessions, ∀ a, s.prog = .ret a → s.call.Answered s.born w.timeline a := by
  have h : (play (routedCheck (sampleRequests 600 "k1")) (.start sampleDb) (stepsToAccount ++
      .spawn (.recordPayment (samplePayment 600 "k1")) ::
      .spawn (.recordPayment (samplePayment 600 "k1")) :: steps 5 4 ++ steps 4 10 ++ steps 5 3)).map
      (fun w => w.sessions.map fun s => s.prog.ended) =
      some [some none, some none, some none, some none, some none,
        some (some (.duplicatePayment "k1"))] := by decide +kernel
  obtain ⟨w, hrun, hl⟩ := exists_run_of_play routedStep_of_check h
  exact ⟨w, hrun, hl, fun s hs a ha => answers_of_run initial_sampleDb hrun hs ha⟩

end Vanguard
