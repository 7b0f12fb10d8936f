import Vanguard.Proofs.Replay

/-!
# `Vanguard.Proofs.ReadOrder`: the events in the order of `occurred_at`

`findByInvoiceId` reads the events of an invoice `ORDER BY occurred_at`, and `occurred_at` is
the start of the transaction. So the events of two transactions can be read in another order
than they were committed in. `StatusAgrees` compares the stored status with the events in read
order.

* `statusAgrees_of_run`: they agree in the runs in which each change of a status starts after
  the changes before it. The invariant is `Timed`, and `Database.Timed.commit` is its step;
* `repaid_invoice_reads_as_cancelled`: a run without the condition.
-/

set_option autoImplicit false

namespace Vanguard

open ReadCommitted Database

/-- The status after a list of events: the one that the last status-changing event implies. -/
def lastImplied (events : List InvoiceEvent) : InvoiceStatus :=
  (events.filterMap InvoiceEvent.impliedStatus).getLast?.getD .draft

/-- `l` is an order in which `findByInvoiceId` may return the events of the invoice: any one
that is sorted by `occurred_at`. -/
structure Database.ReadOrder (db : Database) (invoiceId : Uuid) (l : List InvoiceEvent) :
    Prop where
  perm : l.Perm (db.eventsOf invoiceId)
  sorted : l.Pairwise fun a b => a.occurredAt ≤ b.occurredAt

/-- The statement of `findByInvoiceId` answers such an order. -/
theorem readOrder_of_selectEvents {db : Database} {id : Uuid} {start env : Env}
    {rows : List RowVersion} {l : List InvoiceEvent}
    (h : (Sql.selectEvents id).exec start env db = .ok (rows, l)) : db.ReadOrder id l := by
  cases h
  exact ⟨List.perm_insertionSort _ _, List.pairwise_insertionSort _ _⟩

/-- The stored status of every invoice is the one that its events imply, in the order in which
they are read. -/
def Database.StatusAgrees (db : Database) : Prop :=
  ∀ id r l, db.invoice id = some r → db.ReadOrder id l → lastImplied l = r.status

/-- A step that commits a change of an invoice's status commits an event that is later than
every committed event that implies another status: its transaction has started after them. -/
def StartsAfterChanges (w : ServiceWorld) (a : Step) : Prop :=
  ∀ i env e s, a = .step i env → .invoiceEvent e ∈ w.batch postgres i env →
    e.impliedStatus = some s → w.db.statusOf e.invoiceId ≠ some s →
    ∀ e' ∈ w.db.eventsOf e.invoiceId, ∀ s', e'.impliedStatus = some s' → s' ≠ s →
      e'.occurredAt < e.occurredAt

/-- Every event that implies another status than the present one is earlier than some event
that implies the present one. -/
def Database.Timed (db : Database) : Prop :=
  ∀ id, ∀ e ∈ db.eventsOf id, ∀ s, e.impliedStatus = some s → s ≠ (db.projection id).status →
    ∃ e' ∈ db.eventsOf id, e'.impliedStatus = some (db.projection id).status ∧
      e.occurredAt < e'.occurredAt

/-- The replay keeps the status of the last status-changing event. -/
theorem status_replay (events : List InvoiceEvent) :
    (replay events).status = lastImplied events := by
  induction events using List.reverseRecOn with
  | nil => rfl
  | append_singleton events e ih =>
      rw [replay, List.foldl_append]
      show e.impliedStatus.getD (replay events).status = _
      rw [ih, lastImplied, lastImplied, List.filterMap_append]
      cases he : e.impliedStatus with
      | none => simp [he]
      | some s => simp [he]

/-- The last status-changing event of a list. -/
theorem lastImplied_cases (l : List InvoiceEvent) :
    (l.filterMap InvoiceEvent.impliedStatus = [] ∧ lastImplied l = .draft) ∨
      ∃ before e after s, l = before ++ e :: after ∧ e.impliedStatus = some s ∧
        (∀ x ∈ after, x.impliedStatus = none) ∧ lastImplied l = s := by
  induction l using List.reverseRecOn with
  | nil => exact Or.inl ⟨rfl, rfl⟩
  | append_singleton l e ih =>
      cases he : e.impliedStatus with
      | some s =>
          refine Or.inr ⟨l, e, [], s, rfl, he, by simp, ?_⟩
          simp [lastImplied, he]
      | none =>
          have hsame : (l ++ [e]).filterMap InvoiceEvent.impliedStatus =
              l.filterMap InvoiceEvent.impliedStatus := by simp [he]
          rcases ih with ⟨hnil, hdraft⟩ | ⟨before, x, after, s, rfl, hx, hafter, hlast⟩
          · exact Or.inl ⟨hsame.trans hnil, by rw [lastImplied, hsame]; exact hdraft⟩
          · refine Or.inr ⟨before, x, after ++ [e], s, by simp, hx, ?_, ?_⟩
            · intro y hy
              rcases List.mem_append.mp hy with hy | hy
              · exact hafter y hy
              · exact List.mem_singleton.mp hy ▸ he
            · rw [lastImplied, hsame]
              exact hlast

/-- Timed tables agree with their events in every read order. -/
theorem Database.Timed.statusAgrees {db : Database} (h : db.Timed)
    (hreplay : ∀ id, replay (db.eventsOf id) = db.projection id) : db.StatusAgrees := by
  intro id r l hr hl
  have hstatus : (db.projection id).status = r.status := status_projection hr
  rcases lastImplied_cases l with ⟨hnil, hdraft⟩ | ⟨before, e, after, s, rfl, he, hafter, hlast⟩
  · -- No event changes the status, in no order.
    have hnone : (db.eventsOf id).filterMap InvoiceEvent.impliedStatus = [] := by
      have hperm := hl.perm.filterMap InvoiceEvent.impliedStatus
      rw [hnil] at hperm
      exact List.nil_perm.mp hperm
    rw [hdraft, ← hstatus, ← hreplay, status_replay, lastImplied, hnone]
    rfl
  · rw [hlast, ← hstatus]
    by_contra hne
    -- A later event implies the present status. It can stand nowhere in the list.
    have hmem : e ∈ db.eventsOf id :=
      hl.perm.mem_iff.mp (List.mem_append_right _ List.mem_cons_self)
    obtain ⟨e', he', hs', hlt⟩ := h id e hmem s he hne
    rcases List.mem_append.mp (hl.perm.mem_iff.mpr he') with hb | hb
    · have hle := (List.pairwise_append.mp hl.sorted).2.2 e' hb e List.mem_cons_self
      exact absurd hlt (not_lt.mpr hle)
    · rcases List.mem_cons.mp hb with rfl | hb
      · exact hne (Option.some.inj (he.symm.trans hs'))
      · rw [hafter e' hb] at hs'
        cases hs'

/-- A batch has at most one event. -/
theorem Commit.eventsIn_cases {I : Interference Database RowVersion} {born seen t : Log}
    {c : Call} {rows : List RowVersion} (h : Commit I born seen t c rows) :
    eventsIn rows = [] ∨ ∃ e, .invoiceEvent e ∈ rows ∧ eventsIn rows = [e] := by
  cases h with
  | draft | paid => exact Or.inl rfl
  | settled van v o settledAt start =>
      refine Or.inr ⟨_, List.mem_append_right _ (List.mem_singleton_self _), ?_⟩
      cases o <;> rfl
  | submitted | approved | requested | assessed | rejected | created =>
      refine Or.inr ⟨_, ?_, rfl⟩
      simp

/-- A commit that starts after the changes before it keeps the tables timed. -/
theorem Database.Timed.commit {I : Interference Database RowVersion} {born seen t : Log}
    {c : Call} {rows : List RowVersion} (h : t.now.Timed) (hc : Commit I born seen t c rows)
    (hafter : ∀ id, (t.commit rows).now.projection id =
      ((eventsIn rows).filter fun e => e.invoiceId == id).foldl Projection.apply
        (t.now.projection id))
    (hlater : ∀ e s, .invoiceEvent e ∈ rows → e.impliedStatus = some s →
      t.now.statusOf e.invoiceId ≠ some s → ∀ e' ∈ t.now.eventsOf e.invoiceId,
      ∀ s', e'.impliedStatus = some s' → s' ≠ s → e'.occurredAt < e.occurredAt) :
    (t.commit rows).now.Timed := by
  intro id
  have hevents : (t.commit rows).now.eventsOf id =
      t.now.eventsOf id ++ (eventsIn rows).filter fun e => e.invoiceId == id :=
    eventsOf_writeAll t.now rows id
  rw [hevents, hafter id]
  have hold := h id
  have keep : (eventsIn rows).filter (fun e => e.invoiceId == id) = [] ∨
      ∃ e, .invoiceEvent e ∈ rows ∧ e.invoiceId = id ∧
        (eventsIn rows).filter (fun e => e.invoiceId == id) = [e] := by
    rcases hc.eventsIn_cases with hnil | ⟨e, he, hone⟩
    · exact Or.inl (by rw [hnil]; rfl)
    · rw [hone]
      by_cases hid : e.invoiceId = id
      · exact Or.inr ⟨e, he, hid, by simp [hid]⟩
      · exact Or.inl (by simp [hid])
  rcases keep with hnil | ⟨e, he, rfl, hone⟩
  · rw [hnil, List.append_nil]
    exact hold
  · rw [hone]
    intro x hx s hs hne
    have hne : s ≠ e.impliedStatus.getD (t.now.projection e.invoiceId).status := hne
    cases hi : e.impliedStatus with
    | none =>
        -- The event changes no status, so the old events decide.
        rw [hi] at hne
        rcases List.mem_append.mp hx with hx | hx
        · obtain ⟨e', he', hs', hlt⟩ := hold x hx s hs hne
          refine ⟨e', List.mem_append_left _ he', ?_, hlt⟩
          show e'.impliedStatus = some (e.impliedStatus.getD _)
          rw [hi]
          exact hs'
        · rw [List.mem_singleton.mp hx, hi] at hs
          cases hs
    | some new =>
        rw [hi] at hne
        have hstatus : ∀ e' : InvoiceEvent, e'.impliedStatus = some new → e'.impliedStatus =
            some ((t.now.projection e.invoiceId).apply e).status := by
          intro e' h'
          show _ = some (e.impliedStatus.getD _)
          rw [hi]
          exact h'
        rcases List.mem_append.mp hx with hx | hx
        · by_cases hsame : t.now.statusOf e.invoiceId = some new
          · -- The status stays, and so does the event that is later than `x`.
            have hpresent : (t.now.projection e.invoiceId).status = new := by
              simp [Database.projection, hsame]
            obtain ⟨e', he', hs', hlt⟩ := hold x hx s hs (by rw [hpresent]; exact hne)
            rw [hpresent] at hs'
            exact ⟨e', List.mem_append_left _ he', hstatus e' hs', hlt⟩
          · -- The status changes: the new event is later than `x`.
            exact ⟨e, List.mem_append_right _ (List.mem_singleton_self e), hstatus e hi,
              hlater e new he hi hsame x hx s hs hne⟩
        · rw [List.mem_singleton.mp hx, hi] at hs
          exact absurd (Option.some.inj hs).symm hne

/-- The status agrees with the events in read order, in every committed moment of every
interleaving in which each change of a status starts after the changes before it. -/
theorem statusAgrees_of_run {db : Database} (hdb : db.Initial) {w : ServiceWorld}
    (h : Runs StartsAfterChanges (.start db) w) : ∀ u ≤ w.timeline, u.now.StatusAgrees := by
  have hfit : Fits (Interference.concurrent (D := Database)) StartsAfterChanges :=
    Or.inl Interference.concurrent_shared
  have htimed : ∀ u ≤ w.timeline, u.now.Timed := by
    refine Runs.step_invariant (C := fun _ _ => True) hfit (fun _ _ _ => trivial)
      (fun u hu => ?_) ?_ h
    · rw [Timeline.le_start_iff.mp hu]
      intro id e he
      simp [eventsOf, hdb.events] at he
    · intro w i env s hw hok hs _ hc ih
      have hev := (hw.evolving hfit (Timeline.commits_start _ _)).evolves hc.seen_le
      have hlinked := linked_of_run hdb.van hw
      exact (ih _ (le_refl _)).commit hc
        (hc.projection (hlinked _ (le_refl _)) hev (hlinked _ hc.seen_le))
        fun e s he hs hne => hok i env e s rfl he hs hne
  exact fun u hu => (htimed u hu).statusAgrees (replay_of_run hdb h u hu)

/-- The check of `StartsAfterChanges`. -/
def startsAfterChangesCheck (w : ServiceWorld) : Step → Bool
  | .spawn _ => true
  | .step i env => (w.batch postgres i env).all fun
    | .invoiceEvent e => e.impliedStatus.all fun s =>
      w.db.statusOf e.invoiceId == some s || (w.db.eventsOf e.invoiceId).all fun e' =>
        e'.impliedStatus.all fun s' => s' == s || decide (e'.occurredAt < e.occurredAt)
    | _ => true

/-- A step that passes `startsAfterChangesCheck` meets `StartsAfterChanges`. -/
theorem startsAfterChanges_of_check (w : ServiceWorld) (a : Step)
    (h : startsAfterChangesCheck w a = true) : StartsAfterChanges w a := by
  rintro i env e s rfl he hs hne e' he' s' hs' hother
  have h := List.all_eq_true.mp h _ he
  simp only [hs, Option.all_some, Bool.or_eq_true, beq_iff_eq, hne, false_or,
    List.all_eq_true] at h
  have h := h e' he'
  simp only [hs', Option.all_some, Bool.or_eq_true, beq_iff_eq, hother, false_or,
    decide_eq_true_eq] at h
  exact h

/-- An approval and a financing request that are in progress at the same time. The second one
begins its transaction later. -/
theorem statusAgrees_of_overlapping_calls : ∃ w : ServiceWorld,
    Runs StartsAfterChanges (.start sampleDb) w ∧
      w.db.statusOf sampleId = some .financingRequested ∧
      ∀ u ≤ w.timeline, u.now.StatusAgrees := by
  have h : (play startsAfterChangesCheck (.start sampleDb) (stepsToSubmitted ++
      .spawn sampleApprove :: .spawn sampleRequest :: stepsAt 2 1 8 ++ stepsAt 3 2 2 ++
        stepsAt 3 1 3 ++ stepsAt 4 2 6)).map (fun w => w.db.statusOf sampleId) =
      some (some .financingRequested) := by decide +kernel
  obtain ⟨w, hrun, hl⟩ := exists_run_of_play startsAfterChanges_of_check h
  exact ⟨w, hrun, hl, statusAgrees_of_run initial_sampleDb hrun⟩

/-- A payment begins its transaction before a rejection does, and commits after it. The
invoice is `REPAID`, and its events are read as if the rejection came last. -/
theorem repaid_invoice_reads_as_cancelled : ∃ w : ServiceWorld,
    Runs (fun _ _ => True) (.start (sampleAfter stepsToAccount)) w ∧ w.quiescent = true ∧
      w.db.statusOf sampleId = some .repaid ∧
      lastImplied ((w.db.eventsOf sampleId).insertionSort fun a b =>
        a.occurredAt ≤ b.occurredAt) = .cancelled ∧
      ¬ w.db.StatusAgrees := by
  have h : (play (fun _ _ => true) (.start (sampleAfter stepsToAccount))
      (.spawn (.recordPayment (samplePayment 1000 "k")) ::
        .spawn (.assessAndRecord sampleRejection sampleId) :: stepsAt 2 0 4 ++ stepsAt 3 1 8 ++
        stepsAt 3 0 13)).map
      (fun w => (w.quiescent, w.db.statusOf sampleId,
        lastImplied ((w.db.eventsOf sampleId).insertionSort fun a b =>
          a.occurredAt ≤ b.occurredAt))) =
      some (true, some .repaid, .cancelled) := by decide +kernel
  obtain ⟨w, hw, hl⟩ := Option.map_eq_some_iff.mp h
  simp only [Prod.mk.injEq] at hl
  refine ⟨w, runs_of_play (fun _ _ _ => trivial) hw, hl.1, hl.2.1, hl.2.2, fun hagree => ?_⟩
  obtain ⟨r, hr, hs⟩ := Option.map_eq_some_iff.mp hl.2.1
  have hread : (Sql.selectEvents sampleId).exec sampleEnv sampleEnv w.db = .ok ([], _) := rfl
  have hlast := hagree sampleId r _ hr (readOrder_of_selectEvents hread)
  rw [hl.2.2, hs] at hlast
  cases hlast

end Vanguard
