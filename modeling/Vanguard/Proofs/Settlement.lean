import Vanguard.Proofs.Accounts

/-!
# `Vanguard.Proofs.Settlement`: an account is settled once

`Commit.settling_cases` says which commits settle an account. From it follow

* `repaid_of_run`: in every committed moment of a run, a repaid invoice and an
  `invoice.repaid` event have a settled account behind them;
* `settlesOnce_of_run`: no credit is booked on a settled account, and no account is settled
  twice, when each payment commits on an account that is as open as the payment has read
  it. The guard of `recordPayment` is evaluated on that read, and
  `two_payments_both_settle` is a run in which the account has been settled in between.
-/

set_option autoImplicit false

namespace Vanguard

open ReadCommitted Database

/-! ### The laws -/

/-- The `invoice.repaid` events of an invoice. -/
def Database.repaidEvents (db : Database) (invoiceId : Uuid) : List InvoiceEvent :=
  (db.eventsOf invoiceId).filter fun e => e.eventType == "invoice.repaid"

/-- The batch writes a settled version of the account. -/
def settles (rows : List RowVersion) (id : Uuid) : Bool :=
  rows.any fun
    | .virtualAccount v => v.id == id && v.status == .settled
    | _ => false

/-- How often the log settles the account. -/
def settlements (id : Uuid) : Log → Nat
  | .start _ => 0
  | .commit t rows => settlements id t + if settles rows id then 1 else 0

/-- The entry is a credit on an account that is settled. -/
def Database.isLate (db : Database) (e : LedgerEntry) : Bool :=
  e.entryType == .credit &&
    (db.van e.virtualAccountId).any fun v => v.status == .settled

/-- The credits that the log commits on accounts that are settled by then. -/
def lateCredits : Log → List LedgerEntry
  | .start _ => []
  | .commit t rows => lateCredits t ++ rows.filterMap fun
    | .ledgerEntry e => if t.now.isLate e then some e else none
    | _ => none

/-- Settlement happens once. -/
structure SettlesOnce (t : Log) : Prop where
  credits : lateCredits t = []
  account : ∀ id, settlements id t ≤ 1
  event : ∀ id, (t.now.repaidEvents id).length ≤ 1

/-! ### The commits that settle -/

/-- The event is the last one, and it is no `invoice.repaid`. -/
theorem repaidEvents_append {db db' : Database} {e : InvoiceEvent}
    (h : db'.invoiceEvents = db.invoiceEvents ++ [e]) (he : e.eventType ≠ "invoice.repaid")
    (id : Uuid) : db'.repaidEvents id = db.repaidEvents id := by
  have hdrop : ([e].filter fun e => e.invoiceId == id).filter
      (fun e => e.eventType == "invoice.repaid") = [] := by
    simp [List.filter_filter, he]
  rw [repaidEvents, eventsOf, h, List.filter_append, List.filter_append, hdrop, List.append_nil]
  rfl

/-- The event is the last one, and it is an `invoice.repaid`. -/
theorem length_repaidEvents_append {db db' : Database} {e : InvoiceEvent}
    (h : db'.invoiceEvents = db.invoiceEvents ++ [e]) (he : e.eventType = "invoice.repaid")
    (id : Uuid) : (db'.repaidEvents id).length =
      (db.repaidEvents id).length + if e.invoiceId = id then 1 else 0 := by
  rw [repaidEvents, eventsOf, h, List.filter_append, List.filter_append, List.length_append,
    repaidEvents, eventsOf]
  split <;> simp_all

/-- The call has read the account as active, and its batch writes it. -/
def Pays (seen : Log) (rows : List RowVersion) (id : Uuid) : Prop :=
  ∃ van x, seen.now.van id = some van ∧ van.status = .active ∧ .virtualAccount x ∈ rows ∧
    x.id = id

/-- The settle branch of `recordPayment`: the account was active when the call read it as
`van`, and is the row `v` when it commits. -/
structure Settling (seen t : Log) (rows : List RowVersion) (van v : VirtualAccount)
    (e : LedgerEntry) : Prop where
  hvan : seen.now.van van.id = some van
  hpays : Pays seen rows van.id
  hrow : t.now.van van.id = some v
  hentry : e.virtualAccountId = van.id
  hrows : ∀ e', .ledgerEntry e' ∈ rows → e' = e
  hsettles : ∀ id, settles rows id = true → van.id = id
  hafter : ∀ id, (t.commit rows).now.van id =
    if van.id = id then some (v.receive e.amountCents).settle else t.now.van id
  hinvoices : ∀ id r, (t.commit rows).now.invoice id = some r →
    t.now.invoice id = some r ∨ van.invoiceId = id
  hevents : ∃ event, event.invoiceId = van.invoiceId ∧ event.eventType = "invoice.repaid" ∧
    (t.commit rows).now.invoiceEvents = t.now.invoiceEvents ++ [event]

/-- What the other commits leave as it is. -/
structure NotSettling (seen t : Log) (rows : List RowVersion) : Prop where
  hcredit : ∀ e, .ledgerEntry e ∈ rows → e.entryType = .credit → Pays seen rows e.virtualAccountId
  hsettles : ∀ id, settles rows id = true →
    Pays seen rows id ∧ ∃ v, t.now.van id = some v ∧ v.status = .settled
  hinvoices : ∀ id r, (t.commit rows).now.invoice id = some r → r.status = .repaid →
    t.now.invoice id = some r
  hevents : ∀ id, (t.commit rows).now.repaidEvents id = t.now.repaidEvents id

/-- Only a payment makes an invoice repaid. -/
theorem Commit.repaid_origin {I : Interference Database RowVersion} {born seen t : Log}
    {c : Call} {rows : List RowVersion} (h : Commit I born seen t c rows) {id : Uuid}
    {r : Invoice} (hr : (t.commit rows).now.invoice id = some r) (hs : r.status = .repaid) :
    t.now.invoice id = some r ∨ ∃ cmd, c = .recordPayment cmd := by
  cases h.invoice_change id with
  | kept hsame _ => exact Or.inl (hsame ▸ hr)
  | draft cmd actorId env _ _ _ hdraft =>
      rw [hdraft] at hr
      cases hr
      cases hs
  | rewritten r₀ r' _ hr' hw =>
      obtain rfl : r = r' := Option.some.inj (hr.symm.trans hr')
      cases hw with
      | @repaid cmd => exact Or.inr ⟨cmd, rfl⟩
      | submitted | approved | requested | rejected => simp at hs

/-- A commit of another call than a payment, which writes no account and no ledger entry. -/
theorem Commit.notSettling {I : Interference Database RowVersion} {born seen t : Log}
    {c : Call} {rows : List RowVersion} (h : Commit I born seen t c rows)
    (hc : ∀ cmd, c ≠ .recordPayment cmd)
    (hrows : ∀ row ∈ rows, (∀ e, row ≠ .ledgerEntry e) ∧ ∀ v, row ≠ .virtualAccount v)
    (hevents : ∀ id, (t.commit rows).now.repaidEvents id = t.now.repaidEvents id) :
    NotSettling seen t rows where
  hcredit e he := absurd rfl ((hrows _ he).1 e)
  hsettles id h := by
    obtain ⟨row, hrow, hv⟩ := List.any_eq_true.mp h
    cases row with
    | virtualAccount v => exact absurd rfl ((hrows _ hrow).2 v)
    | invoice | ledgerEntry | invoiceEvent => cases hv
  hinvoices id r hr hs := (h.repaid_origin hr hs).resolve_right fun ⟨cmd, heq⟩ => hc cmd heq
  hevents := hevents

/-- A commit settles an account or leaves the settlements as they are. -/
theorem Commit.settling_cases {I : Interference Database RowVersion} {born seen t : Log}
    {c : Call} {rows : List RowVersion} (h : Commit I born seen t c rows) :
    NotSettling seen t rows ∨ ∃ van v e, Settling seen t rows van v e := by
  have hcommit := h
  cases h with
  | draft => exact Or.inl (hcommit.notSettling (by simp) (by simp) fun _ => rfl)
  | submitted =>
      refine Or.inl (hcommit.notSettling (by simp) (by simp) ?_)
      exact repaidEvents_append rfl (by simp [submittedEvent])
  | approved =>
      refine Or.inl (hcommit.notSettling (by simp) (by simp) ?_)
      exact repaidEvents_append rfl (by simp [approvedEvent])
  | requested =>
      refine Or.inl (hcommit.notSettling (by simp) (by simp) ?_)
      exact repaidEvents_append rfl (by simp [requestedEvent])
  | assessed =>
      refine Or.inl (hcommit.notSettling (by simp) (by simp) ?_)
      exact repaidEvents_append rfl (RiskDecision.eventType_ne _ (by decide))
  | rejected =>
      refine Or.inl (hcommit.notSettling (by simp) (by simp) ?_)
      exact repaidEvents_append rfl (RiskDecision.eventType_ne _ (by decide))
  | created inv van start _ _ _ _ _ _ _ hactive =>
      refine Or.inl ⟨fun e he hcredit => ?_, fun id hset => ?_, fun id r hr _ => hr, ?_⟩
      · simp only [List.mem_cons, RowVersion.ledgerEntry.injEq, reduceCtorEq, List.not_mem_nil,
          false_or, or_false] at he
        subst he
        cases hcredit
      · simp [settles, hactive] at hset
      · exact repaidEvents_append rfl (by simp [vanCreatedEvent])
  | @paid cmd van v start _ _ hvan hactive _ _ _ hrow =>
      have hid := van_id hrow
      have hpays : ∀ rows, .virtualAccount (v.receive cmd.amountCents) ∈ rows →
          Pays seen rows van.id :=
        fun _ h => ⟨van, _, (vanByNumber_some hvan).1, hactive, h, hid⟩
      refine Or.inl ⟨fun e he _ => ?_, fun id hset => ?_, fun id r hr _ => hr, fun _ => rfl⟩
      · simp only [List.mem_cons, RowVersion.ledgerEntry.injEq, reduceCtorEq, List.not_mem_nil,
          or_false] at he
        subst he
        exact hpays _ (by simp)
      · -- `receive` keeps the status, so only a settled row gives a settled version.
        simp only [settles, List.any_cons, List.any_nil, Bool.false_or, Bool.or_false,
          Bool.and_eq_true, beq_iff_eq, VirtualAccount.receive_id] at hset
        obtain rfl : van.id = id := hid.symm.trans hset.1
        exact ⟨hpays _ (by simp), v, hrow, hset.2⟩
  | @settled cmd van v o settledAt start _ _ hvan hactive _ _ _ hrow _ hinvoice =>
      have hid := van_id hrow
      refine Or.inr ⟨van, v, (cmd.credit van.id).row start,
        { hvan := (vanByNumber_some hvan).1, hpays := ?_, hrow, hentry := rfl, hrows := ?_,
          hsettles := ?_, hafter := ?_, hinvoices := ?_, hevents := ?_ }⟩
      · exact ⟨van, v.receive cmd.amountCents, (vanByNumber_some hvan).1, hactive, by simp, hid⟩
      · intro e' he'
        cases o <;> simpa [updateRow] using he'
      · intro id hset
        have hid' : v.id = id := by
          cases o <;> simp [settles, updateRow] at hset <;> rcases hset with h | h <;> exact h.1
        exact hid.symm.trans hid'
      · intro id
        by_cases hi : van.id = id
        · simp [writeAll_append, hid, hi]
          rfl
        · simp [writeAll_append, hid, hi]
      · intro id r hr
        simp only [List.cons_append, Timeline.now_commit, writeAll_cons, writeAll_append,
          writeAll_nil, store_write, invoice_write_invoiceEvent] at hr
        rcases hinvoice with ⟨r', rfl, hr'⟩ | ⟨rfl, -⟩
        · by_cases hi : van.invoiceId = id
          · exact Or.inr hi
          · simp [updateRow, invoice_id hr', hi] at hr
            exact Or.inl hr
        · exact Or.inl hr
      · exact ⟨repaidEvent cmd van (v.receive cmd.amountCents) settledAt start.now, rfl, rfl,
          by simp [writeAll_append]⟩

/-! ### What a repaid invoice rests on -/

/-- The invoice has a settled account. -/
def Database.SettledFor (db : Database) (invoiceId : Uuid) : Prop :=
  ∃ v, db.van v.id = some v ∧ v.invoiceId = invoiceId ∧ v.status = .settled

/-- The status `REPAID` and the event `invoice.repaid` have a settled account behind them. -/
structure Database.RepaidBySettlement (db : Database) : Prop where
  status : ∀ id r, db.invoice id = some r → r.status = .repaid → db.SettledFor id
  event : ∀ id, db.repaidEvents id ≠ [] → db.SettledFor id

/-- A settled invoice stays settled. -/
theorem Database.SettledFor.evolves {db db' : Database} {id : Uuid} (h : db.SettledFor id)
    (hev : db.Evolves db') : db'.SettledFor id := by
  obtain ⟨v, hv, hid, hsettled⟩ := h
  obtain ⟨v', hv', hvev⟩ := hev.van v.id v hv
  exact ⟨v', hvev.id.symm ▸ hv', hvev.invoiceId.trans hid, hvev.settled hsettled⟩

/-- A settlement settles its invoice. -/
theorem Settling.settledFor {seen t : Log} {rows : List RowVersion} {van v : VirtualAccount}
    {e : LedgerEntry} (h : Settling seen t rows van v e) (hev : seen.now.Evolves t.now) :
    (t.commit rows).now.SettledFor van.invoiceId := by
  obtain ⟨v', hv', hvev⟩ := hev.van van.id van h.hvan
  obtain rfl : v = v' := Option.some.inj (h.hrow.symm.trans hv')
  refine ⟨(v.receive e.amountCents).settle, ?_, hvev.invoiceId, rfl⟩
  rw [h.hafter]
  exact if_pos hvev.id.symm

/-- The event of a settlement counts for its own invoice only. -/
theorem Settling.repaidEvents {seen t : Log} {rows : List RowVersion} {van v : VirtualAccount}
    {e : LedgerEntry} (h : Settling seen t rows van v e) (id : Uuid) :
    ((t.commit rows).now.repaidEvents id).length =
      (t.now.repaidEvents id).length + if van.invoiceId = id then 1 else 0 := by
  obtain ⟨event, hinvoice, htype, hevents⟩ := h.hevents
  rw [length_repaidEvents_append hevents htype, hinvoice]

/-- In every committed moment of a run, what is repaid has a settled account. -/
theorem repaid_of_run {db : Database} (hdb : db.Initial) {ok : ServiceWorld → Step → Prop}
    {w : ServiceWorld} (h : Runs ok (.start db) w) :
    ∀ u ≤ w.timeline, u.now.RepaidBySettlement := by
  refine Runs.invariant (C := fun _ _ => True) (Or.inl Interference.concurrent_shared)
    (fun _ _ _ => trivial) (Timeline.commits_start _ _) (fun u hu => ?_) ?_ h
  · rw [Timeline.le_start_iff.mp hu]
    constructor
    · intro id r hr
      rw [Timeline.now_start, hdb.invoice] at hr
      cases hr
    · intro id hne
      simp [repaidEvents, eventsOf, hdb.events] at hne
  · intro c born seen t rows _ hc hev ih
    have hseen := hev.evolves hc.seen_le
    have ht := ih t (le_refl t)
    rcases hc.settling_cases with hn | ⟨van, v, e, hs⟩
    · constructor
      · intro id r hr hrepaid
        exact (ht.status id r (hn.hinvoices id r hr hrepaid) hrepaid).evolves hc.evolves
      · intro id hne
        rw [hn.hevents] at hne
        exact (ht.event id hne).evolves hc.evolves
    · constructor
      · intro id r hr hrepaid
        rcases hs.hinvoices id r hr with hr | rfl
        · exact (ht.status id r hr hrepaid).evolves hc.evolves
        · exact hs.settledFor hseen
      · intro id hne
        by_cases hid : van.invoiceId = id
        · exact hid ▸ hs.settledFor hseen
        · -- The new event is about another invoice.
          refine (ht.event id fun hnil => hne ?_).evolves hc.evolves
          rw [← List.length_eq_zero_iff, hs.repaidEvents, hnil, if_neg hid, List.length_nil]

/-! ### Runs in which payments find the account as they have read it -/

/-- When a step commits a new version of an account, its status is still the one that the
call has read. -/
def AccountUnchangedSinceRead (w : ServiceWorld) (a : Step) : Prop :=
  ∀ i env s x seen van, a = .step i env → w.sessions[i]? = some s → s.seen = some seen →
    .virtualAccount x ∈ w.batch postgres i env → seen.now.van x.id = some van →
    (w.db.van x.id).map VirtualAccount.status = some van.status

/-- `SettlesOnce` together with what carries it through a run. -/
structure SettledOnce (t : Log) : Prop extends SettlesOnce t where
  settled : ∀ id, 0 < settlements id t → ∃ v, t.now.van id = some v ∧ v.status = .settled

/-- A settled account stays settled. -/
theorem SettledOnce.later {t : Log} {db : Database} (h : SettledOnce t) (hev : t.now.Evolves db)
    {id : Uuid} (hpos : 0 < settlements id t) : ∃ v, db.van id = some v ∧ v.status = .settled := by
  obtain ⟨v, hv, hsettled⟩ := h.settled id hpos
  obtain ⟨v', hv', hvev⟩ := hev.van id v hv
  exact ⟨v', hv', hvev.settled hsettled⟩

/-- A commit without a late credit. -/
theorem lateCredits_commit {t : Log} {rows : List RowVersion} (h : lateCredits t = [])
    (hrows : ∀ e, .ledgerEntry e ∈ rows → e.entryType = .credit →
      ∃ v, t.now.van e.virtualAccountId = some v ∧ v.status = .active) :
    lateCredits (t.commit rows) = [] := by
  rw [lateCredits, h, List.nil_append, List.filterMap_eq_nil_iff]
  intro row hrow
  cases row with
  | ledgerEntry e =>
      have hlate : t.now.isLate e = false := by
        by_cases hcredit : e.entryType = .credit
        · obtain ⟨v, hv, hactive⟩ := hrows e hrow hcredit
          simp [isLate, hv, hactive]
        · simp [isLate, hcredit]
      simp [hlate]
  | invoice | virtualAccount | invoiceEvent => rfl

/-- One commit that pays into open accounts only. -/
theorem SettledOnce.commit {I : Interference Database RowVersion} {born seen t : Log}
    {c : Call} {rows : List RowVersion} (h : SettledOnce t) (hc : Commit I born seen t c rows)
    (hlinked : t.now.Linked) (hrepaid : t.now.RepaidBySettlement)
    (hev : seen.now.Evolves t.now)
    (hopen : ∀ id, Pays seen rows id → ∃ v, t.now.van id = some v ∧ v.status = .active) :
    SettledOnce (t.commit rows) := by
  have notSettled : ∀ {id : Uuid}, Pays seen rows id →
      ∀ v, t.now.van id = some v → v.status ≠ .settled := by
    intro id hpays v hv hsettled
    obtain ⟨v', hv', hactive⟩ := hopen id hpays
    obtain rfl : v = v' := Option.some.inj (hv.symm.trans hv')
    rw [hsettled] at hactive
    cases hactive
  rcases hc.settling_cases with hn | ⟨van, v, e, hs⟩
  · -- A batch that writes a settled row again would pay into a settled account.
    have hno : ∀ id, settles rows id = false := by
      intro id
      by_contra hset
      obtain ⟨hpays, v, hv, hsettled⟩ := hn.hsettles id (Bool.eq_true_of_not_eq_false hset)
      exact notSettled hpays v hv hsettled
    refine ⟨⟨?_, fun id => ?_, fun id => ?_⟩, fun id hpos => ?_⟩
    · exact lateCredits_commit h.credits fun e he hcredit => hopen _ (hn.hcredit e he hcredit)
    · simpa [settlements, hno id] using h.account id
    · rw [hn.hevents]
      exact h.event id
    · simp only [settlements, hno id, Bool.false_eq_true, if_false, Nat.add_zero] at hpos
      exact h.later hc.evolves hpos
  · refine ⟨⟨?_, fun id => ?_, fun id => ?_⟩, fun id hpos => ?_⟩
    · refine lateCredits_commit h.credits fun e' he' _ => hopen _ ?_
      rw [hs.hrows e' he', hs.hentry]
      exact hs.hpays
    · rw [settlements]
      split
      · -- The account is settled here, so not before.
        rename_i hset
        obtain rfl := hs.hsettles id hset
        have hnone : settlements van.id t = 0 := by
          by_contra hne
          obtain ⟨v', hv', hsettled⟩ := h.settled van.id (Nat.pos_of_ne_zero hne)
          exact notSettled hs.hpays v' hv' hsettled
        rw [hnone]
      · exact h.account id
    · rw [hs.repaidEvents]
      split
      · -- An earlier event would have another account of the same invoice behind it.
        rename_i hid
        have hnone : t.now.repaidEvents id = [] := by
          by_contra hne
          obtain ⟨v', hv', hinvoice, hsettled⟩ := hrepaid.event id hne
          obtain ⟨v₁, hv₁, hvev⟩ := hev.van van.id van hs.hvan
          have hsame := hlinked.invoiceId v'.id van.id v' v₁ hv' hv₁
            (by rw [hinvoice, hvev.invoiceId, hid])
          exact notSettled hs.hpays v' (hsame ▸ hv') hsettled
        rw [hnone, List.length_nil]
      · exact h.event id
    · by_cases hid : van.id = id
      · exact ⟨_, by rw [hs.hafter, if_pos hid], rfl⟩
      · refine h.later hc.evolves ?_
        rw [settlements, if_neg fun hset => hid (hs.hsettles id hset)] at hpos
        exact hpos

/-- Settlement happens once when each payment finds the status of its account as it has
read it. -/
theorem settlesOnce_of_run {db : Database} (hdb : db.Initial) {w : ServiceWorld}
    (h : Runs AccountUnchangedSinceRead (.start db) w) : SettlesOnce w.timeline := by
  have hstart : SettledOnce (.start db) :=
    ⟨⟨rfl, fun _ => Nat.zero_le _, fun id => by simp [repaidEvents, eventsOf, hdb.events]⟩,
      fun id hpos => absurd hpos (lt_irrefl _)⟩
  refine (Runs.commit_induction (C := fun _ _ => True)
    (J := SettledOnce) (Or.inl Interference.concurrent_shared)
    (fun _ _ _ => trivial) hstart ?_ h).toSettlesOnce
  intro w i env s hrun hok hs _ hc ih
  have hev := (Runs.evolving (Or.inl Interference.concurrent_shared)
    (Timeline.commits_start _ _) hrun).evolves hc.seen_le
  refine ih.commit hc (linked_of_run hdb.van hrun _ (le_refl _))
    (repaid_of_run hdb hrun _ (le_refl _)) hev ?_
  rintro id ⟨van, x, hvan, hactive, hx, rfl⟩
  cases hseen : s.seen with
  | none =>
      -- The first command of a call reads what it finds at that very moment.
      rw [hseen] at hvan
      exact ⟨van, hvan, hactive⟩
  | some seen =>
      rw [hseen] at hvan
      obtain ⟨v, hv, hsame⟩ :=
        Option.map_eq_some_iff.mp (hok i env s x seen van rfl hs hseen hx hvan)
      exact ⟨v, hv, hsame.trans hactive⟩

/-- The check of `AccountUnchangedSinceRead`. -/
def unchangedAccountCheck (w : ServiceWorld) : Step → Bool
  | .spawn _ => true
  | .step i env => (w.sessions[i]?).all fun s => s.seen.all fun seen =>
    (w.batch postgres i env).all fun
      | .virtualAccount x => (seen.now.van x.id).all fun van =>
        (w.db.van x.id).map VirtualAccount.status == some van.status
      | _ => true

/-- A step that passes `unchangedAccountCheck` meets `AccountUnchangedSinceRead`. -/
theorem accountUnchanged_of_check (w : ServiceWorld) (a : Step)
    (h : unchangedAccountCheck w a = true) : AccountUnchangedSinceRead w a := by
  rintro i env s x seen van rfl hs hseen hx hvan
  simp only [unchangedAccountCheck, hs, hseen, Option.all_some, List.all_eq_true] at h
  simpa [hvan] using h _ hx

/-- Two payments that are in progress at the same time. The second one settles the
account. -/
theorem settlesOnce_of_overlapping_payments : ∃ w : ServiceWorld,
    Runs AccountUnchangedSinceRead (.start sampleDb) w ∧
      w.db.statusOf sampleId = some .repaid ∧ SettlesOnce w.timeline := by
  have h : (play unchangedAccountCheck (.start sampleDb) (stepsToAccount ++
      .spawn (.recordPayment (samplePayment 400 "k1")) ::
      .spawn (.recordPayment (samplePayment 600 "k2")) :: steps 4 3 ++ steps 5 2 ++ steps 4 7 ++
      steps 5 15)).map (fun w => w.db.statusOf sampleId) = some (some .repaid) := by
    decide +kernel
  obtain ⟨w, hrun, hstatus⟩ := exists_run_of_play accountUnchanged_of_check h
  exact ⟨w, hrun, hstatus, settlesOnce_of_run initial_sampleDb hrun⟩

/-- Two payments of the full amount with different keys read the account as active, and both
settle it: there is a credit on a settled account, a second settlement, and a second
`invoice.repaid` event. -/
theorem two_payments_both_settle : ∃ w : ServiceWorld,
    Runs RoutedStep (.start sampleDb) w ∧ w.quiescent = true ∧
      (lateCredits w.timeline).map LedgerEntry.idempotencyKey = ["k2"] ∧
      settlements sampleId w.timeline = 2 ∧ (w.db.repaidEvents sampleId).length = 2 ∧
      ¬ SettlesOnce w.timeline := by
  have h : (play (routedCheck (sampleRequests 1000 "k1" ++ sampleRequests 1000 "k2"))
      (.start sampleDb) (stepsToAccount ++
      .spawn (.recordPayment (samplePayment 1000 "k1")) ::
      .spawn (.recordPayment (samplePayment 1000 "k2")) :: steps 4 1 ++ steps 5 2 ++
      steps 4 16 ++ steps 5 15)).map
      (fun w => (w.quiescent, (lateCredits w.timeline).map LedgerEntry.idempotencyKey,
        settlements sampleId w.timeline, (w.db.repaidEvents sampleId).length)) =
      some (true, ["k2"], 2, 2) := by decide +kernel
  obtain ⟨w, hrun, hl⟩ := exists_run_of_play routedStep_of_check h
  simp only [Prod.mk.injEq] at hl
  obtain ⟨hq, hlate, htwice, hevents⟩ := hl
  refine ⟨w, hrun, hq, hlate, htwice, hevents, fun h => ?_⟩
  have honce := h.account sampleId
  omega

end Vanguard
