import Vanguard.Library.Observer
import Vanguard.Proofs.Atomicity
import Vanguard.Proofs.AuditTrail
import Vanguard.Proofs.ReadOrder

/-!
# `Vanguard.Proofs.InvoiceHistory`: what the history of an invoice shows

`getInvoiceHistory` reads the row of an invoice and its events in two statements, without a
transaction. Other calls may commit between the two, so a reply can show the row of one moment
and the events of another one: `history_of_overlapping_approval` is such a reply.

`history_of_run` says what remains true of every reply. Both the row and the events are the ones
of moments of the read, in the order of the statements. The row is what the replay of a trail
says, and one of the two trails continues the other. When nobody commits an event of the invoice
meanwhile, the reply is a snapshot.
-/

set_option autoImplicit false

namespace Vanguard

open ReadCommitted Database

/-! ### The two reads -/

/-- The reply has the row of the moment `u` and the events of the moment `v`. -/
structure InvoiceWithHistory.ReadAt (reply : InvoiceWithHistory) (id : Uuid) (u v : Log) :
    Prop where
  row : u.now.invoice id = some reply.invoice
  events : v.now.ReadOrder id reply.events

/-- The results of a read that begins at the moment `t` and ends at `t'`. -/
def HistoryRead (adm : Env → Prop) (eventsFirst : Bool) (id : Uuid) (t t' : Log) :
    Except JsError InvoiceWithHistory → Prop
  | .ok reply => ∃ u v, t ≤ u ∧ t ≤ v ∧ u ≤ t' ∧ v ≤ t' ∧
      (if eventsFirst then v ≤ u else u ≤ v) ∧ reply.ReadAt id u v
  | .error e => e = .pg .connectionFailure ∧ Faulty adm ∨
      e = .invoiceNotFound id ∧ ∃ u, t ≤ u ∧ u ≤ t' ∧ u.now.invoice id = none

section
variable {I : Interference Database RowVersion} {adm : Env → Prop}
  {guar : Log → Log → List RowVersion → Prop} {time : Log} {seen : Option Log}
  {tx : Tx Env RowVersion}

/-- `EventRepository.findByInvoiceId`. -/
theorem wp_findEvents {id : Uuid} {Q : Except JsError (List InvoiceEvent) → ServiceView → Prop}
    (hok : ∀ t events, I.rel tx.writes time t → t.now.ReadOrder id events →
      Q (.ok events) ⟨t, some (seen.getD t), tx⟩)
    (herr : ∀ t, I.rel tx.writes time t → Faulty adm →
      Q (.error (.pg .connectionFailure)) ⟨t, some (seen.getD t), tx⟩) :
    Await.wp (postgres.rely I adm guar) (EventRepository.findByInvoiceId id)
      ⟨time, seen, tx⟩ Q := by
  refine wp_select (fun _ _ => rfl) (fun t hrel => hok t _ hrel ?_) herr
  exact ⟨List.perm_insertionSort _ _, List.pairwise_insertionSort _ _⟩

/-- `getInvoiceHistory`, with either of the two statements first. -/
theorem wp_getInvoiceHistory (eventsFirst : Bool) (id : Uuid) :
    Await.wp (postgres.rely I adm guar) (InvoiceService.getInvoiceHistory eventsFirst id)
      ⟨time, seen, tx⟩ fun r v => HistoryRead adm eventsFirst id time v.time r := by
  rw [InvoiceService.getInvoiceHistory, promiseAll]
  cases eventsFirst with
  | false =>
      simp only [Bool.false_eq_true, if_false, Await.wp_bind, Await.wp_pure]
      refine wp_findInvoice (fun u hu => ?_) fun _ _ hf => Or.inl ⟨rfl, hf⟩
      refine wp_findEvents (fun v events hv hevents => ?_) fun _ _ hf => Or.inl ⟨rfl, hf⟩
      cases hr : u.now.invoice id with
      | none => exact Or.inr ⟨rfl, u, I.le hu, I.le hv, hr⟩
      | some r =>
          exact ⟨u, v, I.le hu, (I.le hu).trans (I.le hv), I.le hv, le_refl v, I.le hv,
            hr, hevents⟩
  | true =>
      simp only [if_true, Await.wp_bind, Await.wp_pure]
      refine wp_findEvents (fun v events hv hevents => ?_) fun _ _ hf => Or.inl ⟨rfl, hf⟩
      refine wp_findInvoice (fun u hu => ?_) fun _ _ hf => Or.inl ⟨rfl, hf⟩
      cases hr : u.now.invoice id with
      | none => exact Or.inr ⟨rfl, u, (I.le hv).trans (I.le hu), le_refl u, hr⟩
      | some r =>
          exact ⟨u, v, (I.le hv).trans (I.le hu), I.le hv, le_refl u, I.le hu, I.le hu,
            hr, hevents⟩

end

/-! ### What a reply shows -/

/-- The events `l` of the invoice in commit order: those committed before the moment `t`, and
perhaps some of those committed up to `t'`. -/
structure Trail (id : Uuid) (t t' : Log) (l : List InvoiceEvent) : Prop where
  begins : t.now.eventsOf id <+: l
  ends : l <+: t'.now.eventsOf id

/-- When no event of the invoice is committed meanwhile, there is one trail. -/
theorem Trail.eq_of_quiet {id : Uuid} {t t' : Log} {l : List InvoiceEvent} (h : Trail id t t' l)
    (hquiet : t.now.eventsOf id = t'.now.eventsOf id) : l = t'.now.eventsOf id := by
  refine h.ends.eq_of_length (Nat.le_antisymm h.ends.length_le ?_)
  rw [← hquiet]
  exact h.begins.length_le

/-- The events of an invoice are only added to. -/
theorem Database.Evolves.eventsOf {db db' : Database} (h : db.Evolves db') (id : Uuid) :
    db.eventsOf id <+: db'.eventsOf id := h.events.filter _

/-- The status and the signature are the ones of the replay. -/
structure Invoice.Replays (r : Invoice) (l : List InvoiceEvent) : Prop where
  status : r.status = (replay l).status
  signature : r.buyerSignature = (replay l).signature

/-- What a reply shows of the invoice, after a read from the moment `t` to the moment `t'`. -/
structure InvoiceWithHistory.Shows (reply : InvoiceWithHistory) (eventsFirst : Bool) (id : Uuid)
    (t t' : Log) : Prop where
  invoiceId : reply.invoice.id = id
  row : ∃ r, t'.now.invoice id = some r ∧ reply.invoice.Evolves r
  sorted : reply.events.Pairwise fun a b => a.occurredAt ≤ b.occurredAt
  truthful : ∀ e ∈ reply.events, e.invoiceId = id ∧ e.Truthful t'.now
  trails : ∃ stated told, Trail id t t' stated ∧ Trail id t t' told ∧
    (if eventsFirst then told <+: stated else stated <+: told) ∧
    reply.invoice.Replays stated ∧ reply.events.Perm told

/-- The reply agrees with the tables of the moment `t`. -/
structure InvoiceWithHistory.Snapshot (reply : InvoiceWithHistory) (id : Uuid) (t : Log) :
    Prop where
  row : ∃ r, t.now.invoice id = some r ∧ reply.invoice.status = r.status ∧
    reply.invoice.buyerSignature = r.buyerSignature
  events : reply.events.Perm (t.now.eventsOf id)

section
variable {db : Database} {w : ServiceWorld} {id : Uuid} {t t' u v : Log}
  {reply : InvoiceWithHistory} {eventsFirst : Bool}

/-- A committed row replays the events of its moment. -/
theorem replays_of_run (hdb : db.Initial) {ok : ServiceWorld → Step → Prop}
    (h : Runs ok (.start db) w) (hu : u ≤ w.timeline) {r : Invoice}
    (hr : u.now.invoice id = some r) : r.Replays (u.now.eventsOf id) where
  status := by rw [replay_of_run hdb h u hu id, status_projection hr]
  signature := by rw [replay_of_run hdb h u hu id, signature_projection hr]

/-- A reply with the row of one moment of the read and the events of another. -/
theorem InvoiceWithHistory.ReadAt.shows (hdb : db.Initial)
    (h : Runs RoutedStep (.start db) w) (ht' : t' ≤ w.timeline) (hu : t ≤ u) (hv : t ≤ v)
    (hu' : u ≤ t') (hv' : v ≤ t') (horder : if eventsFirst then v ≤ u else u ≤ v)
    (hread : reply.ReadAt id u v) : reply.Shows eventsFirst id t t' := by
  have haudit := Runs.audit hdb h t' ht'
  have hext : Extending t' := haudit.extending
  -- The events of the invoice grow from one moment of the read to a later one.
  have hgrow : ∀ {x y : Log}, x ≤ y → y ≤ t' → x.now.eventsOf id <+: y.now.eventsOf id := by
    intro x y hxy hy
    have hy : Extending y := (Runs.audit hdb h y (hy.trans ht')).extending
    exact (hy.extends hxy).toEvolves.eventsOf id
  refine ⟨invoice_id hread.row, (hext.extends hu').invoice id _ hread.row, hread.events.sorted,
    fun e he => ?_, u.now.eventsOf id, v.now.eventsOf id, ⟨hgrow hu hu', hgrow hu' (le_refl t')⟩,
    ⟨hgrow hv hv', hgrow hv' (le_refl t')⟩, ?_, ?_, hread.events.perm⟩
  · have he := (hgrow hv' (le_refl t')).subset (hread.events.perm.mem_iff.mp he)
    obtain ⟨hmem, hid⟩ := List.mem_filter.mp he
    exact ⟨beq_iff_eq.mp hid, haudit.truthful e hmem⟩
  · cases eventsFirst with
    | true => exact hgrow horder hu'
    | false => exact hgrow horder hv'
  · exact replays_of_run hdb h (hu'.trans ht') hread.row

/-- When no event of the invoice is committed during the read, the reply is a snapshot. -/
theorem InvoiceWithHistory.Shows.snapshot (hdb : db.Initial)
    {ok : ServiceWorld → Step → Prop} (h : Runs ok (.start db) w) (ht' : t' ≤ w.timeline)
    (hshows : reply.Shows eventsFirst id t t')
    (hquiet : t.now.eventsOf id = t'.now.eventsOf id) : reply.Snapshot id t' := by
  obtain ⟨stated, told, hstated, htold, -, hreplays, hperm⟩ := hshows.trails
  obtain rfl := hstated.eq_of_quiet hquiet
  obtain rfl := htold.eq_of_quiet hquiet
  obtain ⟨r, hr, -⟩ := hshows.row
  have hrow := replays_of_run hdb h ht' hr
  exact ⟨⟨r, hr, hreplays.status.trans hrow.status.symm,
    hreplays.signature.trans hrow.signature.symm⟩, hperm⟩

end

/-- A read of the history that begins at the moment `t` and ends at `t'` with `r`. -/
def ReadsHistory (adm : Env → Prop) (eventsFirst : Bool) (id : Uuid) (t t' : Log)
    (r : Except JsError InvoiceWithHistory) : Prop :=
  Observes postgres adm (InvoiceService.getInvoiceHistory eventsFirst id).run t t' r

/-- What its result says. -/
def HistoryResult (adm : Env → Prop) (eventsFirst : Bool) (id : Uuid) (t t' : Log) :
    Except JsError InvoiceWithHistory → Prop
  | .ok reply => reply.Shows eventsFirst id t t' ∧
      (t.now.eventsOf id = t'.now.eventsOf id → reply.Snapshot id t')
  | .error e => e = .pg .connectionFailure ∧ Faulty adm ∨
      e = .invoiceNotFound id ∧ t.now.invoice id = none

/-- The program only reads. -/
theorem only_getInvoiceHistory (eventsFirst : Bool) (id : Uuid) :
    (InvoiceService.getInvoiceHistory eventsFirst id).run.Only fun c =>
      ∃ q, c = .pool q ∧ postgres.Reads q := by
  have hinvoice : (InvoiceRepository.findById id).run.Only fun c =>
      ∃ q, c = .pool q ∧ postgres.Reads q :=
    Await.only_bind (Await.only_await ⟨_, rfl, reads_invoiceById id⟩) fun _ => Await.only_pure _
  have hevents : (EventRepository.findByInvoiceId id).run.Only fun c =>
      ∃ q, c = .pool q ∧ postgres.Reads q :=
    Await.only_await ⟨_, rfl, reads_select fun _ _ => rfl⟩
  rw [InvoiceService.getInvoiceHistory, promiseAll]
  refine Await.only_bind ?_ fun found => ?_
  · split
    · exact Await.only_bind hevents fun _ => Await.only_bind hinvoice fun _ => Await.only_pure _
    · exact Await.only_bind hinvoice fun _ => Await.only_bind hevents fun _ => Await.only_pure _
  · obtain ⟨found, events⟩ := found
    cases found with
    | none => exact Await.only_throw _
    | some r => exact Await.only_pure _

/-- In every run of the HTTP operations, whatever commits between the two statements: a read
ends, and its reply shows the row and the events of moments of the read. It is a snapshot when
no event of the invoice is committed meanwhile. Without a failure of the connection, an invoice
that was committed before the read is found. -/
theorem history_of_run {db : Database} (hdb : db.Initial) {w : ServiceWorld}
    (h : Runs RoutedStep (.start db) w) (adm : Env → Prop) (eventsFirst : Bool) (id : Uuid) :
    (∀ (moments : Nat → Log) (envs : Nat → Env), (∀ n, moments n ≤ moments (n + 1)) →
      (∀ n, adm (envs n)) →
      ∃ n r, ReadsHistory adm eventsFirst id (moments 0) (moments n) r) ∧
    ∀ t t' r, t' ≤ w.timeline → ReadsHistory adm eventsFirst id t t' r →
      HistoryResult adm eventsFirst id t t' r := by
  constructor
  · intro moments envs hle hadm
    exact Observes.exists_of_only (only_getInvoiceHistory eventsFirst id) moments hle envs hadm
  · intro t t' r ht' hread
    have hwp : Await.wp (postgres.rely Interference.concurrent adm fun _ _ _ => True)
        (InvoiceService.getInvoiceHistory eventsFirst id) ⟨t, none, .idle⟩
        fun r v => HistoryRead adm eventsFirst id t v.time r := wp_getInvoiceHistory eventsFirst id
    obtain ⟨seen, hr⟩ := hread.post hwp
    cases r with
    | ok reply =>
        obtain ⟨u, v, hu, hv, hu', hv', horder, hread⟩ := hr
        have hshows := hread.shows hdb h ht' hu hv hu' hv' horder
        exact ⟨hshows, hshows.snapshot hdb h ht'⟩
    | error e =>
        rcases hr with he | ⟨he, u, hu, hu', hnone⟩
        · exact Or.inl he
        · refine Or.inr ⟨he, ?_⟩
          -- A committed row stays, so it would be there at the moment `u`.
          have hext : Extending u := (Runs.audit hdb h u (hu'.trans ht')).extending
          cases hrow : t.now.invoice id with
          | none => rfl
          | some r =>
              obtain ⟨r', hr', -⟩ := (hext.extends hu).invoice id r hrow
              rw [hnone] at hr'
              cases hr'

/-- The log before its last commit. -/
def beforeLast : Log → Log
  | .start db => .start db
  | .commit t _ => t

/-- The part before the last commit comes before. -/
theorem beforeLast_le (t : Log) : beforeLast t ≤ t := by
  cases t with
  | start db => exact le_refl _
  | commit t rows => exact Timeline.le_commit rows (le_refl t)

/-- An approval commits between the two statements: the reply shows a submitted invoice and the
event of its approval. -/
theorem history_of_overlapping_approval : ∃ (w : ServiceWorld) (t : Log)
    (reply : InvoiceWithHistory), Runs RoutedStep (.start sampleDb) w ∧ t ≤ w.timeline ∧
    reply.invoice.status = .submitted ∧
    reply.events.map InvoiceEvent.eventType = ["invoice.submitted", "invoice.buyer_approved"] ∧
    HistoryResult (fun env => env.fault = false) false sampleId t w.timeline (.ok reply) := by
  have h : (play (routedCheck (sampleRequests 1000 "k1")) (.start sampleDb)
      (stepsToSubmitted ++ .spawn sampleApprove :: steps 1 11)).map
      (fun w => (((beforeLast w.timeline).now.invoice sampleId).map Invoice.status,
        ((w.db.eventsOf sampleId).insertionSort fun a b =>
          a.occurredAt ≤ b.occurredAt).map InvoiceEvent.eventType)) =
      some (some .submitted, ["invoice.submitted", "invoice.buyer_approved"]) := by
    decide +kernel
  obtain ⟨w, hrun, hl⟩ := exists_run_of_play routedStep_of_check h
  obtain ⟨hstatus, hevents⟩ := Prod.mk.inj hl
  obtain ⟨r, hr, hstatus⟩ := Option.map_eq_some_iff.mp hstatus
  refine ⟨w, beforeLast w.timeline, ⟨r, _⟩, hrun, beforeLast_le _, hstatus, hevents, ?_⟩
  refine (history_of_run initial_sampleDb hrun _ false sampleId).2 _ _ _ (le_refl _) ?_
  have hrow : postgres.step (.pool (.selectInvoiceById sampleId)) sampleEnv
      (beforeLast w.timeline).now .idle = ⟨[], .idle, .ok [r]⟩ := by
    have hrows : [r] = ((beforeLast w.timeline).now.invoice sampleId).toList := by
      rw [hr]
      rfl
    rw [hrows]
    rfl
  exact Observes.call sampleEnv (le_refl _) rfl hrow
    (Observes.call sampleEnv (beforeLast_le _) rfl rfl (Observes.ret _ _))

end Vanguard
