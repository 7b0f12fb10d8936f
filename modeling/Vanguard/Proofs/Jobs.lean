import Vanguard.Proofs.AuditTrail

/-!
# `Vanguard.Proofs.Jobs`: the queues hold no phantom and lose no notification

A service adds a job to its BullMQ queue after the `COMMIT` of the event that the job reports,
under a `jobId` that is made of the invoice id. BullMQ ignores a job whose id its queue already
holds, and forgets finished jobs (`removeOnComplete`, `removeOnFail`). `Deduplicates` is what
the services rely on, and `QueueRun` a run together with what the queues hold.

`Job.Truthful` says that a job reports what the rows say. It holds when the job is added, and
no later commit breaks it. So two jobs of one id agree in everything but their dates, and a job
that BullMQ ignores is one that the queue holds. `queue_of_run` is the result.
-/

set_option autoImplicit false

namespace Vanguard

open ReadCommitted Database

/-! ### The queues -/

/-- The queue of a job and its id there. -/
def Job.key : Job → String × String
  | invoiceApproved _ jobId => ("notification", jobId)
  | settlementReceiptPdf _ jobId => ("document", jobId)

/-- The job without its dates. -/
def Job.undated : Job → Job
  | invoiceApproved p jobId => .invoiceApproved { p with approvedAt := 0 } jobId
  | settlementReceiptPdf p jobId => .settlementReceiptPdf { p with settledAt := 0 } jobId

/-- `Queue.add` of BullMQ, on the jobs that the queues hold. -/
structure Deduplicates (add : List Job → Job → List Job) : Prop where
  held : ∀ jobs job, job.key ∈ jobs.map Job.key → add jobs job = jobs
  new : ∀ jobs job, job.key ∉ jobs.map Job.key → add jobs job = jobs ++ [job]

/-- The job that a step adds to its queue. An `add` that fails may have added its job before. -/
def ServiceWorld.adds (w : ServiceWorld) : Step → Option Job
  | .spawn _ => none
  | .step i env =>
    match w.sessions[i]? with
    | none => none
    | some s =>
      match s.prog with
      | .call (.ext (.queueAdd job)) _ =>
        if env.fault = true ∧ env.random % 2 = 0 then none else some job
      | _ => none

/-- A run of the HTTP operations, with what the queues hold. Between two steps the queues may
forget jobs. -/
inductive QueueRun (add : List Job → Job → List Job) (t : Log) : ServiceWorld → List Job → Prop
  | start : QueueRun add t (World.start t) []
  | step {w w' : ServiceWorld} {jobs : List Job} {a : Step} (h : QueueRun add t w jobs)
      (ha : RoutedStep w a) (hs : w.step postgres (fun c => c.body.run) a = some w') :
      QueueRun add t w' ((w.adds a).elim jobs (add jobs))
  | forget {w : ServiceWorld} {jobs jobs' : List Job} (h : QueueRun add t w jobs)
      (hsub : jobs'.Sublist jobs) : QueueRun add t w jobs'

/-! ### What a job reports -/

/-- The invoice has an event of this type, by this actor. -/
def Database.HasEvent (db : Database) (r : Invoice) (eventType : String) (actor : Option Uuid) :
    Prop :=
  ∃ e ∈ db.invoiceEvents, e.invoiceId = r.id ∧ e.eventType = eventType ∧ e.actorId = actor

/-- The job reports what the rows say. -/
def Job.Truthful (db : Database) : Job → Prop
  | invoiceApproved p jobId =>
    jobId = "invoice-approved-" ++ p.invoiceId.text ∧
      ∃ r, db.invoice p.invoiceId = some r ∧ p.Of r ∧ r.buyerSignature ≠ none ∧
        db.HasEvent r "invoice.buyer_approved" (some r.buyerId) ∧ p.supplierEmail ≠ "" ∧
        ∃ credential, db.credentials.get? r.supplierId = some credential ∧
          credential.email = p.supplierEmail
  | settlementReceiptPdf p jobId =>
    jobId = "receipt-" ++ p.invoiceId.text ∧
      ∃ r, db.invoice p.invoiceId = some r ∧ p.Of r ∧ db.HasEvent r "invoice.repaid" none ∧
        ∃ v ∈ db.virtualAccounts, v.invoiceId = r.id ∧ v.status = .settled

/-- A payload about an invoice stays true of its later versions. -/
theorem InvoiceApprovedPayload.Of.extends {p : InvoiceApprovedPayload} {r r' : Invoice}
    (h : p.Of r) (hrev : r.Evolves r') (hcurrency : r'.currency = r.currency)
    (hdueDate : r'.dueDate = r.dueDate) : p.Of r' where
  invoiceId := h.invoiceId.trans hrev.id.symm
  invoiceNumber := h.invoiceNumber.trans hrev.invoiceNumber.symm
  supplierId := h.supplierId.trans hrev.supplierId.symm
  buyerId := h.buyerId.trans hrev.buyerId.symm
  amountCents := h.amountCents.trans hrev.amountCents.symm
  currency := h.currency.trans hcurrency.symm
  dueDate := h.dueDate.trans hdueDate.symm

/-- A receipt about an invoice stays true of its later versions. -/
theorem SettlementReceiptPdfPayload.Of.extends {p : SettlementReceiptPdfPayload}
    {r r' : Invoice} (h : p.Of r) (hrev : r.Evolves r') (hcurrency : r'.currency = r.currency) :
    p.Of r' where
  invoiceId := h.invoiceId.trans hrev.id.symm
  invoiceNumber := h.invoiceNumber.trans hrev.invoiceNumber.symm
  supplierId := h.supplierId.trans hrev.supplierId.symm
  buyerId := h.buyerId.trans hrev.buyerId.symm
  amountCents := h.amountCents.trans hrev.amountCents.symm
  currency := h.currency.trans hcurrency.symm

section
variable {db db' : Database}

/-- An event that is in the log stays there. -/
theorem Database.HasEvent.extends (h : db.Evolves db') {r r' : Invoice} (hid : r'.id = r.id)
    {eventType : String} {actor : Option Uuid} (he : db.HasEvent r eventType actor) :
    db'.HasEvent r' eventType actor := by
  obtain ⟨e, hmem, hinvoice, htype, hactor⟩ := he
  exact ⟨e, h.events.subset hmem, hinvoice.trans hid.symm, htype, hactor⟩

/-- A truthful job stays truthful. -/
theorem Job.Truthful.extends (h : db.Extends db') (hcredentials : db'.credentials = db.credentials)
    {job : Job} (hjob : job.Truthful db) : job.Truthful db' := by
  cases job with
  | invoiceApproved p jobId =>
      obtain ⟨hid, r, hr, hp, hsig, hevent, hne, hemail⟩ := hjob
      obtain ⟨r', hr', hrev⟩ := h.invoice _ r hr
      obtain ⟨hcurrency, hdueDate⟩ := h.invoiceColumns _ r r' hr hr'
      refine ⟨hid, r', hr', hp.extends hrev hcurrency hdueDate, hrev.signature hsig, ?_, hne, ?_⟩
      · rw [hrev.buyerId]
        exact hevent.extends h.toEvolves hrev.id
      · rw [hcredentials, hrev.supplierId]
        exact hemail
  | settlementReceiptPdf p jobId =>
      obtain ⟨hid, r, hr, hp, hevent, v, hv, hinvoice, hsettled⟩ := hjob
      obtain ⟨r', hr', hrev⟩ := h.invoice _ r hr
      obtain ⟨v', hv', hvev⟩ := h.van _ v (mem_virtualAccounts.mp hv)
      refine ⟨hid, r', hr', hp.extends hrev (h.invoiceColumns _ r r' hr hr').1,
        hevent.extends h.toEvolves hrev.id, v', ?_, ?_, hvev.settled hsettled⟩
      · rw [mem_virtualAccounts, hvev.id]
        exact hv'
      · exact hvev.invoiceId.trans (hinvoice.trans hrev.id.symm)

/-- Two truthful jobs of one id in one queue differ in their dates only. -/
theorem Job.Truthful.undated_eq {job job' : Job} (h : job.Truthful db) (h' : job'.Truthful db)
    (hkey : job.key = job'.key) : job.undated = job'.undated := by
  have text_inj : ∀ {a b : Uuid}, a.text = b.text → a = b := fun {a b} hab => by
    cases a
    cases b
    cases hab
    rfl
  cases job with
  | invoiceApproved p jobId =>
      cases job' with
      | settlementReceiptPdf p' jobId' => simp [Job.key] at hkey
      | invoiceApproved p' jobId' =>
          obtain ⟨rfl, r, hr, hp, -, -, -, credential, hc, hemail⟩ := h
          obtain ⟨rfl, r', hr', hp', -, -, -, credential', hc', hemail'⟩ := h'
          -- The id of the job names the invoice, and the invoice its supplier.
          have hid : p.invoiceId = p'.invoiceId :=
            text_inj ((String.append_right_inj _).mp (congrArg Prod.snd hkey))
          cases (hid ▸ hr).symm.trans hr'
          cases hc.symm.trans hc'
          simp only [Job.undated, Job.invoiceApproved.injEq, InvoiceApprovedPayload.mk.injEq,
            and_true]
          exact ⟨⟨hid, hp.invoiceNumber.trans hp'.invoiceNumber.symm,
            hp.supplierId.trans hp'.supplierId.symm, hemail.symm.trans hemail',
            hp.buyerId.trans hp'.buyerId.symm, hp.amountCents.trans hp'.amountCents.symm,
            hp.currency.trans hp'.currency.symm, hp.dueDate.trans hp'.dueDate.symm⟩,
            congrArg Prod.snd hkey⟩
  | settlementReceiptPdf p jobId =>
      cases job' with
      | invoiceApproved p' jobId' => simp [Job.key] at hkey
      | settlementReceiptPdf p' jobId' =>
          obtain ⟨rfl, r, hr, hp, -⟩ := h
          obtain ⟨rfl, r', hr', hp', -⟩ := h'
          have hid : p.invoiceId = p'.invoiceId :=
            text_inj ((String.append_right_inj _).mp (congrArg Prod.snd hkey))
          cases (hid ▸ hr).symm.trans hr'
          simp only [Job.undated, Job.settlementReceiptPdf.injEq,
            SettlementReceiptPdfPayload.mk.injEq, and_true]
          exact ⟨⟨hid, hp.invoiceNumber.trans hp'.invoiceNumber.symm,
            hp.supplierId.trans hp'.supplierId.symm, hp.buyerId.trans hp'.buyerId.symm,
            hp.amountCents.trans hp'.amountCents.symm, hp.currency.trans hp'.currency.symm⟩,
            congrArg Prod.snd hkey⟩

end

/-! ### The events behind a job -/

section
variable {db : Database} {e : InvoiceEvent}

/-- The event of an approval is by the invoice's buyer, and the invoice is signed. -/
theorem InvoiceEvent.Truthful.approval (h : e.Truthful db)
    (htype : e.eventType = "invoice.buyer_approved") :
    ∃ r, db.invoice e.invoiceId = some r ∧ e.actorId = some r.buyerId ∧
      r.buyerSignature ≠ none := by
  obtain ⟨htype', r, hr, hactor, hp⟩ := h
  rw [htype] at htype'
  cases hpayload : e.payload with
  | buyerApproved buyerId signature approvedAt =>
      rw [hpayload] at hactor hp
      exact ⟨r, hr, hactor, hp.2.2⟩
  | assessment decision =>
      rw [hpayload] at htype'
      exact absurd htype'.symm (decision.eventType_ne (by decide))
  | _ =>
      rw [hpayload] at htype'
      simp [EventPayload.eventType] at htype'

/-- The event of a settlement has nobody as its actor, and the invoice's account is
settled. -/
theorem InvoiceEvent.Truthful.settlement (h : e.Truthful db)
    (htype : e.eventType = "invoice.repaid") :
    ∃ r v, db.invoice e.invoiceId = some r ∧ e.actorId = none ∧ v ∈ db.virtualAccounts ∧
      v.invoiceId = r.id ∧ v.status = .settled := by
  obtain ⟨htype', r, hr, hactor, hp⟩ := h
  rw [htype] at htype'
  cases hpayload : e.payload with
  | repaid virtualAccountId received key settledAt =>
      rw [hpayload] at hactor hp
      obtain ⟨⟨v, hv, hinvoice, hsettled, -⟩, -⟩ := hp
      exact ⟨r, v, hr, hactor, mem_virtualAccounts.mpr (van_id hv ▸ hv), hinvoice, hsettled⟩
  | assessment decision =>
      rw [hpayload] at htype'
      exact absurd htype'.symm (decision.eventType_ne (by decide))
  | _ =>
      rw [hpayload] at htype'
      simp [EventPayload.eventType] at htype'

end

/-- No commit touches the credentials. -/
theorem credentials_of_le {t t' : Log} (h : t ≤ t') :
    t'.now.credentials = t.now.credentials := by
  refine Timeline.now_of_le (P := fun db : Database => db.credentials = t.now.credentials)
    (fun db r hdb => ?_) h rfl
  cases r <;> exact hdb

/-! ### The runs -/

section
variable {db : Database} {w : ServiceWorld}

/-- A job that a service is about to add is truthful. -/
theorem Runs.job_truthful (hdb : db.Initial) (h : Runs RoutedStep (.start db) w)
    {s : Session Database RowVersion Sql Ext Env JsError Call (Except JsError Reply) Sql.Rows
      Ext.Res} (hs : s ∈ w.sessions) {job : Job} {k : _}
    (hk : s.prog = .call (.ext (.queueAdd job)) k) : job.Truthful w.db := by
  obtain ⟨tr, -, hin, -, hannounced⟩ := h.orderly.sends hs hk
  have haudit := Runs.audit hdb h w.timeline (le_refl _)
  -- The event is committed, so it is true.
  have hevent : ∀ {invoiceId eventType}, RecordedEvent tr invoiceId eventType →
      ∃ e ∈ w.db.invoiceEvents, e.invoiceId = invoiceId ∧ e.eventType = eventType ∧
        e.Truthful w.db := by
    rintro _ _ ⟨rows, hrows, e, he, rfl, rfl⟩
    obtain ⟨u, -, hu⟩ := hin.done rows hrows
    have hmem := (haudit.extending.extends hu).events.subset (mem_invoiceEvents_commit he)
    exact ⟨e, hmem, rfl, rfl, haudit.truthful e hmem⟩
  cases job with
  | invoiceApproved p jobId =>
      obtain ⟨hid, hne, hread, hread', hrecorded⟩ := hannounced
      obtain ⟨u₁, -, hu₁, credential, hcredential, hemail⟩ := hin.saw hread
      obtain ⟨u₂, -, hu₂, r, hr, hp⟩ := hin.saw hread'
      obtain ⟨e, he, heid, htype, htrue⟩ := hevent hrecorded
      obtain ⟨r', hr', hactor, hsig⟩ := htrue.approval htype
      rw [heid] at hr'
      have hext := haudit.extending.extends hu₂
      obtain ⟨r'', hr'', hrev⟩ := hext.invoice _ r hr
      cases hr'.symm.trans hr''
      obtain ⟨hcurrency, hdueDate⟩ := hext.invoiceColumns _ r r' hr hr'
      have hp' := hp.extends hrev hcurrency hdueDate
      refine ⟨hid, r', hr', hp', hsig, ⟨e, he, heid.trans hp'.invoiceId, htype, hactor⟩, hne,
        credential, ?_, hemail⟩
      rw [← hp'.supplierId]
      exact (congrArg (fun c => c.get? p.supplierId) (credentials_of_le hu₁)).trans hcredential
  | settlementReceiptPdf p jobId =>
      obtain ⟨hid, hread, hrecorded⟩ := hannounced
      obtain ⟨u₂, -, hu₂, r, hr, hp⟩ := hin.saw hread
      obtain ⟨e, he, heid, htype, htrue⟩ := hevent hrecorded
      obtain ⟨r', v, hr', hactor, hv, hinvoice, hsettled⟩ := htrue.settlement htype
      rw [heid] at hr'
      have hext := haudit.extending.extends hu₂
      obtain ⟨r'', hr'', hrev⟩ := hext.invoice _ r hr
      cases hr'.symm.trans hr''
      have hp' := hp.extends hrev (hext.invoiceColumns _ r r' hr hr').1
      exact ⟨hid, r', hr', hp', ⟨e, he, heid.trans hp'.invoiceId, htype, hactor⟩, v, hv, hinvoice,
        hsettled⟩

/-- A step keeps what the jobs report. -/
theorem Job.Truthful.step (hdb : db.Initial) (h : Runs RoutedStep (.start db) w)
    {w' : ServiceWorld} {a : Step} (ha : RoutedStep w a)
    (hs : w.step postgres (fun c => c.body.run) a = some w') {job : Job}
    (hjob : job.Truthful w.db) : job.Truthful w'.db := by
  have hle : w.timeline ≤ w'.timeline := World.le_of_step hs
  have haudit := Runs.audit hdb (.step a h ha hs) w'.timeline (le_refl _)
  exact hjob.extends (haudit.extending.extends hle) (credentials_of_le hle)

/-- The job that a step adds is one that a session is about to add. -/
theorem ServiceWorld.adds_cases {a : Step} {job : Job} (h : w.adds a = some job) :
    ∃ s ∈ w.sessions, ∃ k, s.prog = .call (.ext (.queueAdd job)) k := by
  cases a with
  | spawn c => cases h
  | step i env =>
      simp only [ServiceWorld.adds] at h
      split at h
      · cases h
      · rename_i s hs
        refine ⟨s, List.mem_of_getElem? hs, ?_⟩
        split at h
        · rename_i job' k hk
          split at h
          · cases h
          · cases h
            exact ⟨k, hk⟩
        · cases h

end

section
variable {add : List Job → Job → List Job} {db : Database} {w : ServiceWorld} {jobs : List Job}

/-- A run with queues is a run. -/
theorem QueueRun.runs {t : Log} (h : QueueRun add t w jobs) : Runs RoutedStep t w := by
  induction h with
  | start => exact .refl
  | step _ ha hs ih => exact .step _ ih ha hs
  | forget _ _ ih => exact ih

/-- What the queues hold. -/
structure Queues (db : Database) (jobs : List Job) : Prop where
  keys : (jobs.map Job.key).Nodup
  truthful : ∀ job ∈ jobs, job.Truthful db

/-- A true job that is added leaves the queues without duplicates and true. -/
theorem Queues.add_job (hadd : Deduplicates add) (h : Queues db jobs) {job : Job}
    (hjob : job.Truthful db) : Queues db (add jobs job) := by
  by_cases hkey : job.key ∈ jobs.map Job.key
  · rw [hadd.held jobs job hkey]
    exact h
  · rw [hadd.new jobs job hkey]
    constructor
    · rw [List.map_append, List.map_singleton]
      refine List.nodup_append.mpr ⟨h.keys, List.nodup_singleton _, fun key hk key' hk' => ?_⟩
      rintro rfl
      exact hkey (List.mem_singleton.mp hk' ▸ hk)
    · intro job' hj
      rcases List.mem_append.mp hj with hj | hj
      · exact h.truthful job' hj
      · exact List.mem_singleton.mp hj ▸ hjob

/-- In every run the queues hold true jobs, each once. -/
theorem QueueRun.queues (hadd : Deduplicates add) (hdb : db.Initial)
    (h : QueueRun add (.start db) w jobs) : Queues w.db jobs := by
  induction h with
  | start => exact ⟨List.nodup_nil, fun job hj => absurd hj List.not_mem_nil⟩
  | @step w w' jobs a h ha hs ih =>
      have hrun := h.runs
      have hkept : Queues w'.db jobs :=
        ⟨ih.keys, fun job hj => (ih.truthful job hj).step hdb hrun ha hs⟩
      cases hadds : w.adds a with
      | none => exact hkept
      | some job =>
          obtain ⟨s, hsm, k, hk⟩ := ServiceWorld.adds_cases hadds
          exact hkept.add_job hadd ((hrun.job_truthful hdb hsm hk).step hdb hrun ha hs)
  | forget _ hsub ih =>
      exact ⟨ih.keys.sublist (hsub.map _), fun job hj => ih.truthful job (hsub.subset hj)⟩

/-- In every run, the queues hold every id once, and every job in them reports what the rows
say now. A job that is added to them is there afterwards, but for its dates. -/
theorem queue_of_run (hadd : Deduplicates add) (hdb : db.Initial)
    (h : QueueRun add (.start db) w jobs) :
    (jobs.map Job.key).Nodup ∧ (∀ job ∈ jobs, job.Truthful w.db) ∧
      ∀ a job, w.adds a = some job →
        ∃ job' ∈ add jobs job, job'.key = job.key ∧ job'.undated = job.undated := by
  have hqueues := h.queues hadd hdb
  refine ⟨hqueues.keys, hqueues.truthful, fun a job hadds => ?_⟩
  obtain ⟨s, hs, k, hk⟩ := ServiceWorld.adds_cases hadds
  have hjob := h.runs.job_truthful hdb hs hk
  by_cases hkey : job.key ∈ jobs.map Job.key
  · obtain ⟨job', hj', hkey'⟩ := List.mem_map.mp hkey
    refine ⟨job', ?_, hkey', (hqueues.truthful job' hj').undated_eq hjob hkey'⟩
    rw [hadd.held jobs job hkey]
    exact hj'
  · refine ⟨job, ?_, rfl, rfl⟩
    rw [hadd.new jobs job hkey]
    exact List.mem_append_right _ (List.mem_singleton_self job)

end

/-! ### A queue -/

/-- A queue that ignores a job whose id it holds. -/
def addJob (jobs : List Job) (job : Job) : List Job :=
  if job.key ∈ jobs.map Job.key then jobs else jobs ++ [job]

/-- `addJob` drops a job whose key is held and adds any other. -/
theorem deduplicates_addJob : Deduplicates addJob where
  held jobs job h := by rw [addJob, if_pos h]
  new jobs job h := by rw [addJob, if_neg h]

/-- The world and the queue after a list of steps. -/
def queuePlay (p : ServiceWorld → Step → Bool) :
    ServiceWorld × List Job → List Step → Option (ServiceWorld × List Job)
  | q, [] => some q
  | (w, jobs), a :: as =>
    if p w a then
      (w.step postgres (fun c => c.body.run) a).bind fun w' =>
        queuePlay p (w', (w.adds a).elim jobs (addJob jobs)) as
    else none

/-- A schedule that is played with its queues extends a run with queues. -/
theorem queueRun_of_play {p : ServiceWorld → Step → Bool} {t : Log} {q q' : ServiceWorld × List Job}
    {as : List Step} (hp : ∀ w a, p w a = true → RoutedStep w a)
    (h : QueueRun addJob t q.1 q.2) (hplay : queuePlay p q as = some q') :
    QueueRun addJob t q'.1 q'.2 := by
  induction as generalizing q with
  | nil =>
      cases hplay
      exact h
  | cons a as ih =>
      obtain ⟨w, jobs⟩ := q
      simp only [queuePlay] at hplay
      split at hplay
      · rename_i hok
        obtain ⟨w', hs, hplay⟩ := Option.bind_eq_some_iff.mp hplay
        exact ih (.step h (hp w a hok) hs) hplay
      · cases hplay

/-- The sample database, with the e-mail address of the supplier. -/
def notifiedDb : Database :=
  { sampleDb with
      credentials :=
        { rows := [⟨sampleSupplier, "supplier@example.com"⟩]
          nodup := by decide } }

/-- Two approvals of the invoice in a race: both have read it before one of them commits. Then
the settlement. -/
def stepsToTwoJobs : List Step :=
  stepsToSubmitted ++ .spawn sampleApprove :: .spawn sampleApprove :: steps 1 1 ++
    steps 2 13 ++ steps 1 12 ++ .spawn sampleRequest :: steps 3 8 ++
    .spawn sampleCreateVan :: steps 4 12 ++
    .spawn (.recordPayment (samplePayment 1000 "k1")) :: steps 5 17

/-- The queues after the two approvals and the settlement. -/
theorem queue_of_two_approvals : ∃ (w : ServiceWorld) (jobs : List Job),
    QueueRun addJob (.start notifiedDb) w jobs ∧
    jobs.map Job.key = [("notification", "invoice-approved-1"), ("document", "receipt-1")] ∧
    (jobs.map Job.key).Nodup ∧ (∀ job ∈ jobs, job.Truthful w.db) ∧
      ∀ a job, w.adds a = some job →
        ∃ job' ∈ addJob jobs job, job'.key = job.key ∧ job'.undated = job.undated := by
  have h : (queuePlay (routedCheck (sampleRequests 1000 "k1")) (World.start (.start notifiedDb), [])
      stepsToTwoJobs).map
      (fun q => (q.1.sessions.map fun s => s.prog.finished, q.2.map Job.key)) =
      some ([true, true, true, true, true, true],
        [("notification", "invoice-approved-1"), ("document", "receipt-1")]) := by
    decide +kernel
  obtain ⟨⟨w, jobs⟩, hplay, hkeys⟩ := Option.map_eq_some_iff.mp h
  have hrun := queueRun_of_play routedStep_of_check .start hplay
  exact ⟨w, jobs, hrun, congrArg Prod.snd hkeys, queue_of_run deduplicates_addJob
    ⟨fun _ => rfl, fun _ => rfl, rfl, rfl⟩ hrun⟩

end Vanguard
