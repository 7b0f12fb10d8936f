import Vanguard.Proofs.Answers
import Vanguard.Proofs.Jobs
import Vanguard.Services.Worker

/-!
# `Vanguard.Proofs.Receipts`: the mails and the receipts are true

The services and the worker processes share the queues. A worker may take any job that a queue
holds, as often as it likes: a job that has failed or stalled is run again. `WorkerRun` is a run of
both sides, in any interleaving.

`Job.Does` says which effects the handler of a job may have, after the ones that it has had
(`Job.emits`). The jobs of the queues are true (`QueueRun.queues`), and so is what the handlers
leave behind: `worker_of_run`. The column `pdf_receipt_path` is null until the invoice has been
repaid, and then names a file that has been written and is a receipt of this invoice.
-/

set_option autoImplicit false

namespace Vanguard

open ReadCommitted Database

/-! ### The paths -/

/-- No digit of a time is a separator of the path. -/
theorem dash_not_mem_toString {now : Timestamp} (h : 0 ≤ now) : '-' ∉ (toString now).toList := by
  obtain ⟨n, rfl⟩ := Int.eq_ofNat_of_zero_le h
  intro hdash
  have hdigit : '-' ∈ Nat.toDigits 10 n := by
    rw [← Nat.toList_repr]
    exact hdash
  exact absurd (Nat.isDigit_of_mem_toDigits (by decide) (by decide) hdigit) (by decide)

/-- What is before the last separator. -/
theorem eq_of_append_cons {α : Type} {a : α} {xs xs' ys ys' : List α} (h : a ∉ ys) (h' : a ∉ ys')
    (he : xs ++ a :: ys = xs' ++ a :: ys') : xs = xs' := by
  rcases List.append_eq_append_iff.mp he with ⟨zs, rfl, hz⟩ | ⟨zs, rfl, hz⟩
  · cases zs with
    | nil => exact (List.append_nil _).symm
    | cons z zs =>
        obtain ⟨-, rfl⟩ := List.cons.inj hz
        exact absurd (List.mem_append_right _ List.mem_cons_self) h
  · cases zs with
    | nil => exact List.append_nil _
    | cons z zs =>
        obtain ⟨-, rfl⟩ := List.cons.inj hz
        exact absurd (List.mem_append_right _ List.mem_cons_self) h'

/-- A path names its invoice. -/
theorem invoiceId_of_receiptPath {id id' : Uuid} {now now' : Timestamp} (h : 0 ≤ now)
    (h' : 0 ≤ now') (hpath : receiptPath id now = receiptPath id' now') : id = id' := by
  unfold receiptPath at hpath
  have hname := (String.append_left_inj _).mp hpath
  rw [String.append_assoc, String.append_assoc, String.append_assoc, String.append_assoc] at hname
  have hlist := congrArg String.toList ((String.append_right_inj _).mp hname)
  rw [String.toList_append, String.toList_append, String.toList_append, String.toList_append]
    at hlist
  have htext : id.text = id'.text := String.toList_inj.mp <|
    eq_of_append_cons (dash_not_mem_toString h) (dash_not_mem_toString h') hlist
  cases id
  cases id'
  cases htext
  rfl

/-! ### The handlers -/

/-- The mail says what the job reports. -/
structure InvoiceApprovedPayload.Mails (runtime : WorkerRuntime) (p : InvoiceApprovedPayload)
    (m : Mail) : Prop where
  sender : m.sender = runtime.smtpFrom
  recipient : m.recipient = p.supplierEmail
  subject : m.subject = "Invoice " ++ p.invoiceNumber ++ " approved — request financing now"
  html : invoiceApprovedHtml runtime p = some m.html
  text : invoiceApprovedText runtime p = some m.text

/-- What the handler of a job may do after the effects `done`. -/
def Job.Does (runtime : WorkerRuntime) : Job → List Effect → Effect → Prop
  | .invoiceApproved p _, _, .mail m => p.Mails runtime m
  | .settlementReceiptPdf p _, _, .file path receipt => ∃ now generated, 0 ≤ now ∧
    path = receiptPath p.invoiceId now ∧ receipt = settlementReceipt runtime p generated
  | .settlementReceiptPdf p _, done, .column id path => id = p.invoiceId ∧
    (∃ now, 0 ≤ now ∧ path = receiptPath p.invoiceId now) ∧ ∃ receipt, .file path receipt ∈ done
  | _, _, _ => False

/-- The clock of a worker is after the epoch. -/
def Env.AfterEpoch (env : Env) : Prop := 0 ≤ env.now

/-- The effect of a call to the outside, if it has happened. -/
theorem mem_attempt {env : Env} {fx : List Effect} {e : WorkerError} {x : Effect}
    (h : x ∈ (env.attempt fx e).1) : x ∈ fx := by
  unfold Env.attempt at h
  split at h
  · split at h
    · cases h
    · exact h
  · exact h

/-- A job, handled after the epoch, has the effects listed for it and no others. -/
theorem Job.emits (runtime : WorkerRuntime) (job : Job) :
    Emits workerEffects Env.AfterEpoch (job.Does runtime) (job.handle runtime).run []
      fun _ _ => True := by
  cases job with
  | invoiceApproved p jobId =>
      simp only [Job.handle, InvoiceApprovedHandler.handle]
      split
      · rename_i html text hhtml htext
        refine emits_await fun db env _ => ⟨fun fx hfx => ?_, trivial⟩
        obtain rfl := List.mem_singleton.mp (mem_attempt hfx)
        exact ⟨rfl, rfl, rfl, hhtml, htext⟩
      · exact emits_throw trivial
  | settlementReceiptPdf p jobId =>
      refine emits_bind (emits_bind (emits_await fun db env hnow => ⟨by simp [workerEffects], ?_⟩))
      refine emits_bind (emits_await fun db' env' _ => ⟨by simp [workerEffects], ?_⟩)
      refine emits_bind (emits_await fun db'' env'' _ => ⟨fun fx hfx => ?_, ?_⟩)
      · obtain rfl := List.mem_singleton.mp (mem_attempt hfx)
        exact ⟨env.now, env'.now, hnow, rfl, rfl⟩
      cases hfault : env''.fault with
      | true =>
          simp only [workerEffects, Env.attempt, hfault, if_true]
      | false =>
          simp only [workerEffects, Env.attempt, hfault, List.append_nil, List.nil_append,
            Bool.false_eq_true, if_false]
          refine emits_pure ?_
          -- The file is there: the column may name it.
          refine emits_await fun db₁ env₁ _ => ⟨fun fx hfx => ?_, trivial⟩
          obtain ⟨r, hr, rfl⟩ := List.mem_map.mp (mem_attempt hfx)
          exact ⟨invoice_id (Option.mem_toList.mp hr), ⟨env.now, hnow, rfl⟩, _,
            List.mem_singleton_self _⟩

/-! ### What the mails and the receipts say -/

/-- The mail is to the supplier of an approved invoice, and about this invoice. -/
structure Mail.About (runtime : WorkerRuntime) (db : Database) (m : Mail) (r : Invoice) :
    Prop where
  stored : db.invoice r.id = some r
  signed : r.buyerSignature ≠ none
  approved : db.HasEvent r "invoice.buyer_approved" (some r.buyerId)
  recipient : ∃ credential, db.credentials.get? r.supplierId = some credential ∧
    m.recipient = credential.email
  subject : m.subject = "Invoice " ++ r.invoiceNumber ++ " approved — request financing now"
  contents : ∃ p : InvoiceApprovedPayload, p.Of r ∧ invoiceApprovedHtml runtime p = some m.html ∧
    invoiceApprovedText runtime p = some m.text

/-- The receipt is about a repaid invoice, whose account is settled. -/
structure Receipt.About (runtime : WorkerRuntime) (db : Database) (receipt : Receipt)
    (r : Invoice) : Prop where
  stored : db.invoice r.id = some r
  invoiceId : receipt.invoiceId = r.id
  repaid : db.HasEvent r "invoice.repaid" none
  settled : ∃ v ∈ db.virtualAccounts, v.invoiceId = r.id ∧ v.status = .settled
  contents : ∃ (p : SettlementReceiptPdfPayload) (now : Timestamp), p.Of r ∧
    receipt = settlementReceipt runtime p now

section
variable {runtime : WorkerRuntime} {db : Database} {jobId : String}

/-- The mail of a true job is about the invoice. -/
theorem Job.Truthful.mail {p : InvoiceApprovedPayload} {m : Mail}
    (h : (Job.invoiceApproved p jobId).Truthful db) (hm : p.Mails runtime m) :
    ∃ r, m.About runtime db r := by
  obtain ⟨-, r, hr, hp, hsig, hevent, -, credential, hc, hemail⟩ := h
  refine ⟨r, ?_, hsig, hevent, ⟨credential, hc, hm.recipient.trans hemail.symm⟩, ?_,
    p, hp, hm.html, hm.text⟩
  · rw [← hp.invoiceId]
    exact hr
  · rw [hm.subject, hp.invoiceNumber]

/-- The receipt of a true job is about the invoice. -/
theorem Job.Truthful.receipt {p : SettlementReceiptPdfPayload}
    (h : (Job.settlementReceiptPdf p jobId).Truthful db) (now : Timestamp) :
    ∃ r, (settlementReceipt runtime p now).About runtime db r := by
  obtain ⟨-, r, hr, hp, hevent, hsettled⟩ := h
  refine ⟨r, ?_, hp.invoiceId, hevent, hsettled, p, now, hp, rfl⟩
  rw [← hp.invoiceId]
  exact hr

end

/-! ### The repaid invoices -/

section
variable {I : Interference Database RowVersion} {born seen t : Log} {c : Call}
  {rows : List RowVersion}

/-- A commit that appends the event of a settlement sets the status of the invoice. -/
theorem Commit.repaid_of_event (hc : Commit I born seen t c rows) (hseen : seen.now.Signed)
    {e : InvoiceEvent} (he : .invoiceEvent e ∈ rows) (htype : e.eventType = "invoice.repaid") :
    (t.commit rows).now.statusOf e.invoiceId = some .repaid := by
  cases hc with
  | @settled cmd van v o settledAt start _ hle hvan _ _ _ _ hrow hfull hinvoice =>
      obtain rfl : e = repaidEvent cmd van (v.receive cmd.amountCents) settledAt start.now := by
        rcases (by simpa using he : _ ∈ (updateRow RowVersion.invoice _ o).1 ∨ _) with he | he
        · obtain ⟨r, -, hr⟩ := mem_updateRow he
          cases hr
        · exact he
      -- The invoice of an account is there when the call reads it.
      obtain ⟨r₀, hr₀, -⟩ := hseen.backed_later (Evolves.refl _)
        (.account van (mem_virtualAccounts.mpr (vanByNumber_some hvan).1) rfl)
      obtain ⟨r, rfl, hr⟩ | ⟨-, hnone⟩ := hinvoice
      · simp [statusOf, repaidEvent, updateRow, invoice_id hr]
      · rw [hnone] at hr₀
        cases hr₀
  | draft => simp at he
  | paid => simp at he
  | submitted =>
      obtain rfl := by simpa using he
      simp [submittedEvent] at htype
  | approved =>
      obtain rfl := by simpa using he
      simp [approvedEvent] at htype
  | requested =>
      obtain rfl := by simpa using he
      simp [requestedEvent] at htype
  | assessed =>
      obtain rfl := by simpa using he
      exact absurd htype (RiskDecision.eventType_ne _ (by decide))
  | rejected =>
      obtain rfl := by simpa using he
      exact absurd htype (RiskDecision.eventType_ne _ (by decide))
  | created =>
      obtain rfl := by simpa using he
      simp [vanCreatedEvent] at htype

end

/-- An invoice with the event of a settlement has been repaid. -/
theorem Runs.repaid_of_event {db : Database} (hdb : db.Initial) {w : ServiceWorld}
    (h : Runs RoutedStep (.start db) w) {e : InvoiceEvent} (he : e ∈ w.db.invoiceEvents)
    (htype : e.eventType = "invoice.repaid") :
    ∃ u ≤ w.timeline, u.now.statusOf e.invoiceId = some .repaid := by
  have hstart : ¬ e ∈ db.invoiceEvents := by
    rw [hdb.events]
    exact List.not_mem_nil
  obtain ⟨u, rows, hu, hbefore, hafter⟩ :=
    Timeline.exists_commit (P := fun db : Database => e ∈ db.invoiceEvents)
      (Run.le_timeline h) hstart he
  rw [Timeline.now_commit, invoiceEvents_writeAll] at hafter
  have hmem := mem_eventsIn.mp ((List.mem_append.mp hafter).resolve_left hbefore)
  obtain ⟨born, seen, c, hc⟩ := h.ofCalls u rows hu
  have hseen := hc.seen_le.trans ((Timeline.le_commit rows (le_refl u)).trans hu)
  exact ⟨_, hu, hc.repaid_of_event (Runs.audit hdb h seen hseen).signed hmem htype⟩

/-! ### The runs -/

/-- A run of the HTTP operations and the worker processes, with what the queues hold and what the
handlers have done. -/
inductive WorkerRun (runtime : WorkerRuntime) (add : List Job → Job → List Job) (t : Log) :
    ServiceWorld → List Job → Workers → Prop
  | start : WorkerRun runtime add t (World.start t) [] Crew.idle
  | service {w w' : ServiceWorld} {jobs : List Job} {ws : Workers} {a : Step}
      (h : WorkerRun runtime add t w jobs ws) (ha : RoutedStep w a)
      (hs : w.step postgres (fun c => c.body.run) a = some w') :
      WorkerRun runtime add t w' ((w.adds a).elim jobs (add jobs)) ws
  | forget {w : ServiceWorld} {jobs jobs' : List Job} {ws : Workers}
      (h : WorkerRun runtime add t w jobs ws) (hsub : jobs'.Sublist jobs) :
      WorkerRun runtime add t w jobs' ws
  | worker {w : ServiceWorld} {jobs : List Job} {ws ws' : Workers} {a : WorkerAction}
      (h : WorkerRun runtime add t w jobs ws) (ha : a.Admitted Env.AfterEpoch)
      (hs : ws.step runtime jobs w.db a = some ws') : WorkerRun runtime add t w jobs ws'

section
variable {runtime : WorkerRuntime} {add : List Job → Job → List Job} {db : Database}
  {w : ServiceWorld} {jobs : List Job} {ws : Workers}

/-- The services do not see the workers. -/
theorem WorkerRun.queueRun {t : Log} (h : WorkerRun runtime add t w jobs ws) :
    QueueRun add t w jobs := by
  induction h with
  | start => exact .start
  | service _ ha hs ih => exact .step ih ha hs
  | forget _ hsub ih => exact .forget ih hsub
  | worker _ _ _ ih => exact ih

/-- Every effect is one of a true job. -/
theorem WorkerRun.sound (hadd : Deduplicates add) (hdb : db.Initial)
    (h : WorkerRun runtime add (.start db) w jobs ws) :
    ws.Sound workerEffects Env.AfterEpoch (Job.Does runtime) fun job => job.Truthful w.db := by
  induction h with
  | start => exact .idle
  | service h ha hs ih =>
      exact ih.mono fun job hjob => hjob.step hdb h.queueRun.runs ha hs
  | forget _ _ ih => exact ih
  | worker h ha hs ih =>
      exact ih.step (Job.emits runtime) (h.queueRun.queues hadd hdb).truthful ha hs

/-- A mail that was sent is in the log of its job. -/
theorem mem_mails {m : Mail} (h : m ∈ ws.mails) : ∃ job, (job, .mail m) ∈ ws.log := by
  obtain ⟨⟨job, fx⟩, he, hm⟩ := List.mem_filterMap.mp h
  cases fx with
  | mail m' =>
      cases hm
      exact ⟨job, he⟩
  | file path receipt => cases hm
  | column id path => cases hm

/-- A file that is there is in the log of its job. -/
theorem mem_of_file? {path : String} {receipt : Receipt} (h : ws.file? path = some receipt) :
    ∃ job, (job, .file path receipt) ∈ ws.log := by
  obtain ⟨⟨job, fx⟩, he, hfile⟩ := List.exists_of_findSome?_eq_some h
  cases fx with
  | mail m => cases hfile
  | file path' receipt' =>
      simp only [Option.ite_none_right_eq_some] at hfile
      obtain ⟨rfl, hfile⟩ := hfile
      cases hfile
      exact ⟨job, List.mem_reverse.mp he⟩
  | column id path' => cases hfile

/-- A path that is stored is in the log of its job. -/
theorem mem_of_pdfReceiptPath {id : Uuid} {path : String} (h : ws.pdfReceiptPath id = some path) :
    ∃ job, (job, .column id path) ∈ ws.log := by
  obtain ⟨⟨job, fx⟩, he, hcolumn⟩ := List.exists_of_findSome?_eq_some h
  cases fx with
  | mail m => cases hcolumn
  | file path' receipt => cases hcolumn
  | column id' path' =>
      simp only [Option.ite_none_right_eq_some] at hcolumn
      obtain ⟨rfl, hcolumn⟩ := hcolumn
      cases hcolumn
      exact ⟨job, List.mem_reverse.mp he⟩

/-- A path that was written has a file. -/
theorem isSome_file? {job : Job} {path : String} {receipt : Receipt}
    (h : (job, .file path receipt) ∈ ws.log) : (ws.file? path).isSome = true := by
  refine List.findSome?_isSome_iff.mpr ⟨_, List.mem_reverse.mpr h, ?_⟩
  simp

/-- In every run, what the workers leave behind is true. Every mail is to the supplier of an
approved invoice and about it, and every receipt is about a repaid invoice. The column
`pdf_receipt_path` of an invoice that has not been repaid is null, and a path in it has a file,
which is a receipt of this invoice. -/
theorem worker_of_run (hadd : Deduplicates add) (hdb : db.Initial)
    (h : WorkerRun runtime add (.start db) w jobs ws) :
    (∀ m ∈ ws.mails, ∃ r, m.About runtime w.db r) ∧
    (∀ path receipt, ws.file? path = some receipt → ∃ r, receipt.About runtime w.db r) ∧
    ∀ id path, ws.pdfReceiptPath id = some path →
      (∃ receipt, ws.file? path = some receipt ∧ receipt.invoiceId = id) ∧
      ∃ u ≤ w.timeline, u.now.statusOf id = some .repaid := by
  have hsound := h.sound hadd hdb
  refine ⟨fun m hm => ?_, fun path receipt hfile => ?_, fun id path hcolumn => ?_⟩
  · obtain ⟨job, hlog⟩ := mem_mails hm
    obtain ⟨hjob, done, -, hdoes⟩ := hsound.log _ _ hlog
    cases job with
    | invoiceApproved p jobId => exact hjob.mail hdoes
    | settlementReceiptPdf p jobId => exact absurd hdoes not_false
  · obtain ⟨job, hlog⟩ := mem_of_file? hfile
    obtain ⟨hjob, done, -, hdoes⟩ := hsound.log _ _ hlog
    cases job with
    | invoiceApproved p jobId => exact absurd hdoes not_false
    | settlementReceiptPdf p jobId =>
        obtain ⟨-, generated, -, -, rfl⟩ := hdoes
        exact hjob.receipt generated
  · obtain ⟨job, hlog⟩ := mem_of_pdfReceiptPath hcolumn
    obtain ⟨hjob, done, hdone, hdoes⟩ := hsound.log _ _ hlog
    cases job with
    | invoiceApproved p jobId => exact absurd hdoes not_false
    | settlementReceiptPdf p jobId =>
        obtain ⟨rfl, ⟨now, hnow, rfl⟩, receipt, hfile⟩ := hdoes
        constructor
        · -- Whoever has written the file last, its path names the invoice.
          obtain ⟨receipt', hfile'⟩ := Option.isSome_iff_exists.mp (isSome_file? (hdone _ hfile))
          obtain ⟨job', hlog'⟩ := mem_of_file? hfile'
          obtain ⟨-, _, -, hdoes'⟩ := hsound.log _ _ hlog'
          refine ⟨receipt', hfile', ?_⟩
          cases job' with
          | invoiceApproved p' jobId' => exact absurd hdoes' not_false
          | settlementReceiptPdf p' jobId' =>
              obtain ⟨now', generated, hnow', hpath, rfl⟩ := hdoes'
              exact (invoiceId_of_receiptPath hnow hnow' hpath).symm
        · obtain ⟨-, r, -, hp, ⟨e, he, heid, htype, -⟩, -⟩ := hjob
          rw [hp.invoiceId, ← heid]
          exact h.queueRun.runs.repaid_of_event hdb he htype

end

/-! ### A sample run -/

/-- The check of a step of the workers. -/
def admittedCheck : WorkerAction → Bool
  | .take _ => true
  | .perform _ env => decide (0 ≤ env.now)

/-- An action that passes `admittedCheck` is admitted. -/
theorem admitted_of_check {a : WorkerAction} (h : admittedCheck a = true) :
    a.Admitted Env.AfterEpoch := by
  cases a with
  | take n => trivial
  | perform i env =>
      have hnow : 0 ≤ env.now := of_decide_eq_true h
      exact hnow

/-- The workers after a list of steps, while the services do nothing. -/
def workerPlay (runtime : WorkerRuntime) (jobs : List Job) (db : Database) :
    Workers → List WorkerAction → Option Workers
  | ws, [] => some ws
  | ws, a :: as =>
    if admittedCheck a then
      (ws.step runtime jobs db a).bind fun ws' => workerPlay runtime jobs db ws' as
    else none

/-- A schedule of the workers that is played extends their run. -/
theorem workerRun_of_play {runtime : WorkerRuntime} {add : List Job → Job → List Job} {t : Log}
    {w : ServiceWorld} {jobs : List Job} {ws ws' : Workers} {as : List WorkerAction}
    (h : WorkerRun runtime add t w jobs ws)
    (hplay : workerPlay runtime jobs w.db ws as = some ws') :
    WorkerRun runtime add t w jobs ws' := by
  induction as generalizing ws with
  | nil =>
      cases hplay
      exact h
  | cons a as ih =>
      simp only [workerPlay] at hplay
      split at hplay
      · rename_i hok
        obtain ⟨ws₁, hs, hplay⟩ := Option.bind_eq_some_iff.mp hplay
        exact ih (.worker h (admitted_of_check hok) hs) hplay
      · cases hplay

/-- Before the workers begin, a run with queues is a run with workers. -/
theorem QueueRun.workerRun {runtime : WorkerRuntime} {add : List Job → Job → List Job} {t : Log}
    {w : ServiceWorld} {jobs : List Job} (h : QueueRun add t w jobs) :
    WorkerRun runtime add t w jobs Crew.idle := by
  induction h with
  | start => exact .start
  | step _ ha hs ih => exact .service ih ha hs
  | forget _ hsub ih => exact .forget ih hsub

/-- A runtime that writes amounts and dates as numbers. -/
def sampleWorkerRuntime : WorkerRuntime :=
  { formatMoney := fun amountCents currency => some (currency ++ " " ++ toString amountCents)
    localeAmount := fun amountCents => toString amountCents
    localeDate := fun t => toString t
    smtpFrom := "vanguard@example.com" }

/-- The mail is sent but its answer is lost, so it is sent again. Then the receipt. -/
def stepsOfWorkers : List WorkerAction :=
  [.take 0, .perform 0 { sampleEnv with fault := true, random := 1 }, .take 0,
    .perform 1 sampleEnv, .take 1, .perform 2 sampleEnv, .perform 2 sampleEnv,
    .perform 2 sampleEnv, .perform 2 sampleEnv]

/-- The services of `stepsToTwoJobs`, then the workers. -/
theorem workers_of_two_approvals : ∃ (w : ServiceWorld) (jobs : List Job) (ws : Workers),
    WorkerRun sampleWorkerRuntime addJob (.start notifiedDb) w jobs ws ∧
    ws.mails.map Mail.recipient = ["supplier@example.com", "supplier@example.com"] ∧
    (ws.pdfReceiptPath sampleId).isSome = true ∧
    (∀ m ∈ ws.mails, ∃ r, m.About sampleWorkerRuntime w.db r) ∧
    (∀ path receipt, ws.file? path = some receipt →
      ∃ r, receipt.About sampleWorkerRuntime w.db r) ∧
    ∀ id path, ws.pdfReceiptPath id = some path →
      (∃ receipt, ws.file? path = some receipt ∧ receipt.invoiceId = id) ∧
      ∃ u ≤ w.timeline, u.now.statusOf id = some .repaid := by
  have h : (queuePlay (routedCheck (sampleRequests 1000 "k1")) (World.start (.start notifiedDb), [])
      stepsToTwoJobs).bind (fun q =>
        (workerPlay sampleWorkerRuntime q.2 q.1.db Crew.idle stepsOfWorkers).map fun ws =>
          (ws.mails.map Mail.recipient, (ws.pdfReceiptPath sampleId).isSome)) =
      some (["supplier@example.com", "supplier@example.com"], true) := by
    decide +kernel
  obtain ⟨⟨w, jobs⟩, hplay, h⟩ := Option.bind_eq_some_iff.mp h
  obtain ⟨ws, hworkers, h⟩ := Option.map_eq_some_iff.mp h
  have hrun := workerRun_of_play
    (queueRun_of_play routedStep_of_check .start hplay).workerRun hworkers
  exact ⟨w, jobs, ws, hrun, congrArg Prod.fst h, congrArg Prod.snd h,
    worker_of_run deduplicates_addJob ⟨fun _ => rfl, fun _ => rfl, rfl, rfl⟩ hrun⟩

end Vanguard
