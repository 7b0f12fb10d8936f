import Vanguard.Proofs.Conservation
import Vanguard.Proofs.Settlement

/-!
# `Vanguard.Proofs.FullPayment`: settled means paid in full

The settle test of `recordPayment` compares two doubles. `paidInFull_iff` says when it
compares the amounts themselves: the expected amount is safe, the balance may be any. From
it follow

* `settled_iff_fully_paid`: in every committed moment of every run of routed calls, an
  account is settled exactly when its balance has reached the expected amount;
* `advance_matches_of_run`: the expected amount, the advance and the invoice agree, and a
  repaid invoice is covered by credits, in the runs of matching steps. `createVan` takes the
  expected amount from its command, and `advance_of_another_amount` is a run in which one
  paisa repays an invoice over 1000.
-/

set_option autoImplicit false

namespace Vanguard

open ReadCommitted Database

/-! ### The settle test -/

/-- The settle test is exact when the expected amount is safe: rounding is monotone, and it
does not move an amount below a safe one. -/
theorem paidInFull_iff {v : VirtualAccount} (hpositive : 0 ≤ v.expectedAmountCents)
    (hsafe : v.expectedAmountCents ≤ maxSafeInteger) (hreceived : 0 ≤ v.receivedAmountCents) :
    v.paidInFull ↔ v.expectedAmountCents ≤ v.receivedAmountCents := by
  constructor
  · intro hfull
    by_contra hlt
    have hr : number v.receivedAmountCents = v.receivedAmountCents :=
      number_of_le hreceived (by omega)
    have he : number v.expectedAmountCents = v.expectedAmountCents :=
      number_of_le hpositive hsafe
    rw [VirtualAccount.paidInFull, hr, he] at hfull
    omega
  · intro hle
    exact number_mono hpositive hle

/-- A settled account is paid in full, and any other one is active and open. The amounts are
in the ranges in which the settle test is exact. -/
structure VirtualAccount.Exact (v : VirtualAccount) : Prop where
  expected : 0 < v.expectedAmountCents
  safe : v.expectedAmountCents ≤ maxSafeInteger
  received : 0 ≤ v.receivedAmountCents
  settled : v.status = .settled → v.expectedAmountCents ≤ v.receivedAmountCents
  active : v.status ≠ .settled → v.status = .active ∧ v.receivedAmountCents < v.expectedAmountCents

namespace VirtualAccount.Exact

variable {v : VirtualAccount} {amount : Int}

/-- The status tells whether the account is paid in full. -/
theorem settled_iff (h : v.Exact) :
    v.status = .settled ↔ v.expectedAmountCents ≤ v.receivedAmountCents := by
  constructor
  · exact h.settled
  · intro hfull
    by_contra hopen
    have := (h.active hopen).2
    omega

/-- The settle test on the row that the increment returns. -/
theorem paidInFull_receive (h : v.Exact) (hamount : 0 < amount) :
    (v.receive amount).paidInFull ↔
      v.expectedAmountCents ≤ v.receivedAmountCents + amount := by
  have hr := h.received
  exact paidInFull_iff (v := v.receive amount) h.expected.le h.safe
    (show 0 ≤ v.receivedAmountCents + amount by omega)

/-- A payment that leaves the account open finds it open. -/
theorem receive (h : v.Exact) (hamount : 0 < amount)
    (hopen : ¬ (v.receive amount).paidInFull) : (v.receive amount).Exact := by
  rw [h.paidInFull_receive hamount] at hopen
  have hr := h.received
  have hstatus : v.status ≠ .settled := by
    intro hs
    have := h.settled hs
    omega
  refine ⟨h.expected, h.safe, ?_, fun hs => absurd hs hstatus, fun _ => ⟨(h.active hstatus).1, ?_⟩⟩
  · show 0 ≤ v.receivedAmountCents + amount
    omega
  · show v.receivedAmountCents + amount < v.expectedAmountCents
    omega

/-- A payment that fills the account settles it, whatever its status was. -/
theorem settle (h : v.Exact) (hamount : 0 < amount) (hfull : (v.receive amount).paidInFull) :
    (v.receive amount).settle.Exact := by
  rw [h.paidInFull_receive hamount] at hfull
  have hr := h.received
  refine ⟨h.expected, h.safe, ?_, fun _ => hfull, fun hs => absurd rfl hs⟩
  show 0 ≤ v.receivedAmountCents + amount
  omega

end VirtualAccount.Exact

/-- Every account is exact. -/
def Database.AccountsExact (db : Database) : Prop := ∀ id v, db.van id = some v → v.Exact

/-- A database without accounts has no inexact one. -/
theorem Database.AccountsExact.of_none {db : Database} (h : ∀ id, db.van id = none) :
    db.AccountsExact := by
  intro id v hv
  rw [h] at hv
  cases hv

/-- A commit of a routed call keeps the accounts exact. -/
theorem Database.AccountsExact.commit {I : Interference Database RowVersion}
    {born seen t : Log} {c : Call} {rows : List RowVersion} (h : t.now.AccountsExact)
    (hc : Commit I born seen t c rows) (hroute : c.Routed) :
    (t.commit rows).now.AccountsExact := by
  intro id v hv
  cases hc.account_change id with
  | kept hsame => exact h id v (hsame ▸ hv)
  | opened inv van _ _ hexpected hreceived hactive hpositive _ hafter =>
      obtain rfl : v = van := Option.some.inj (hv.symm.trans hafter)
      refine ⟨?_, ?_, ?_, ?_, ?_⟩
      · rw [hexpected]
        exact hpositive
      · rw [hexpected]
        exact hroute.expected
      · rw [hreceived]
      · intro hs
        rw [hactive] at hs
        cases hs
      · intro _
        refine ⟨hactive, ?_⟩
        rw [hreceived, hexpected]
        exact hpositive
  | credited van v₀ hpaying hv₀ hopen hafter =>
      obtain rfl := Option.some.inj (hv.symm.trans hafter)
      exact (h id v₀ hv₀).receive hpaying.hamount hopen
  | settled van v₀ hpaying hv₀ hfull hafter =>
      obtain rfl := Option.some.inj (hv.symm.trans hafter)
      exact (h id v₀ hv₀).settle hpaying.hamount hfull

/-- Settled means fully paid, in exact integers, in every committed moment of every
interleaving of routed calls. -/
theorem settled_iff_fully_paid {db : Database} (hdb : ∀ id, db.van id = none)
    {w : ServiceWorld} (h : Runs RoutedStep (.start db) w) :
    ∀ u ≤ w.timeline, ∀ v ∈ u.now.virtualAccounts,
      (v.status = .settled ↔ v.expectedAmountCents ≤ v.receivedAmountCents) ∧
        (v.status ≠ .settled → v.status = .active) := by
  have hexact : ∀ u ≤ w.timeline, u.now.AccountsExact := by
    refine Runs.invariant (C := fun c _ => c.Routed) (Or.inl Interference.concurrent_shared)
      (fun _ c ha => ha c rfl) (Timeline.commits_start _ _) (fun u hu => ?_) ?_ h
    · rw [Timeline.le_start_iff.mp hu]
      exact .of_none hdb
    · intro c born seen t rows hroute hc _ ih
      exact (ih t (le_refl t)).commit hc hroute
  intro u hu v hv
  have hv := hexact u hu v.id v (mem_virtualAccounts.mp hv)
  exact ⟨hv.settled_iff, fun hs => (hv.active hs).1⟩

/-- Two payments that overlap, of 600 and 700 paise for an advance of 1000. Both have read
the account as active, and the second one settles it. -/
theorem settled_iff_fully_paid_of_overlapping_payments : ∃ w : ServiceWorld,
    Runs RoutedStep (.start sampleDb) w ∧
      w.db.virtualAccounts.rows.map (fun v =>
        (v.status, v.expectedAmountCents, v.receivedAmountCents)) = [(.settled, 1000, 1300)] ∧
      ∀ u ≤ w.timeline, ∀ v ∈ u.now.virtualAccounts,
        (v.status = .settled ↔ v.expectedAmountCents ≤ v.receivedAmountCents) ∧
          (v.status ≠ .settled → v.status = .active) := by
  have h : (play (routedCheck (.paymentWebhook (samplePayment 700 "k2") ::
      sampleRequests 600 "k1")) (.start sampleDb) (stepsToAccount ++
      .spawn (.recordPayment (samplePayment 600 "k1")) ::
      .spawn (.recordPayment (samplePayment 700 "k2")) :: steps 4 2 ++ steps 5 2 ++ steps 4 8 ++
      steps 5 15)).map
      (fun w => w.db.virtualAccounts.rows.map fun v =>
        (v.status, v.expectedAmountCents, v.receivedAmountCents)) =
      some [(.settled, 1000, 1300)] := by decide +kernel
  obtain ⟨w, hrun, hl⟩ := exists_run_of_play routedStep_of_check h
  exact ⟨w, hrun, hl, settled_iff_fully_paid (fun _ => rfl) hrun⟩

/-! ### The advance and the invoice -/

/-- The advance is the amount of the invoice, and a repaid invoice is covered by credits. -/
structure Database.AdvanceMatches (db : Database) : Prop where
  amounts : ∀ v ∈ db.virtualAccounts, ∃ r e, db.invoice v.invoiceId = some r ∧
    db.debitsOf v.id = [e] ∧ e.amountCents = v.expectedAmountCents ∧
    v.expectedAmountCents = r.amountCents
  repaid : ∀ id r, db.invoice id = some r → r.status = .repaid → ∃ v ∈ db.virtualAccounts,
    v.invoiceId = id ∧ r.amountCents ≤ ((db.creditsOf v.id).map LedgerEntry.amountCents).sum

/-- A step that commits an account commits it for the amount of the stored invoice, and a step
that commits a payment does not settle by rounding: it settles the account only with the
expected amount. The second part holds of every safe expected amount (`paidInFull_iff`). -/
def MatchingStep (w : ServiceWorld) (a : Step) : Prop :=
  ∀ i env s, a = .step i env → w.sessions[i]? = some s → w.batch postgres i env ≠ [] →
    (∀ cmd r, s.call = .createVan cmd → w.db.invoice cmd.invoiceId = some r →
      cmd.expectedAmountCents = r.amountCents) ∧
    ∀ cmd v, s.call = .recordPayment cmd → w.db.vanByNumber cmd.accountNumber = some v →
      (v.receive cmd.amountCents).paidInFull →
      v.expectedAmountCents ≤ v.receivedAmountCents + cmd.amountCents

/-- The expected amount of each account is the amount of its invoice, and a settled account
has received it. -/
structure Database.Matched (db : Database) : Prop where
  expected : ∀ id v r, db.van id = some v → db.invoice v.invoiceId = some r →
    v.expectedAmountCents = r.amountCents
  received : ∀ id v, db.van id = some v → v.status = .settled →
    v.expectedAmountCents ≤ v.receivedAmountCents

/-- A commit under the conditions of `MatchingStep`. -/
theorem Database.Matched.commit {I : Interference Database RowVersion} {born seen t : Log}
    {c : Call} {rows : List RowVersion} (h : t.now.Matched) (hc : Commit I born seen t c rows)
    (hlinked : t.now.Linked) (hev : seen.now.Evolves t.now)
    (hcreate : ∀ cmd r, c = .createVan cmd → t.now.invoice cmd.invoiceId = some r →
      cmd.expectedAmountCents = r.amountCents)
    (hpay : ∀ cmd v, c = .recordPayment cmd → t.now.vanByNumber cmd.accountNumber = some v →
      (v.receive cmd.amountCents).paidInFull →
      v.expectedAmountCents ≤ v.receivedAmountCents + cmd.amountCents) :
    (t.commit rows).now.Matched := by
  -- An account that was there: neither its expected amount nor the invoice's has changed.
  have old : ∀ id v₀ v r, t.now.van id = some v₀ → v₀.Evolves v →
      (t.commit rows).now.invoice v.invoiceId = some r →
      v.expectedAmountCents = r.amountCents := by
    intro id v₀ v r hv₀ hve hr
    obtain ⟨r₀, hr₀⟩ := hlinked.invoice id v₀ hv₀
    obtain ⟨r', hr', hre⟩ := hc.evolves.invoice _ r₀ hr₀
    rw [hve.invoiceId, hr'] at hr
    obtain rfl := Option.some.inj hr
    rw [hve.expectedAmountCents, hre.amountCents]
    exact h.expected id v₀ r₀ hv₀ hr₀
  -- The row that a payment locks is the one that its account number names.
  have current : ∀ {cmd : RecordPaymentCommand} {van v : VirtualAccount},
      Paying I born seen t cmd van v → t.now.vanByNumber cmd.accountNumber = some v := by
    intro cmd van v hp
    obtain ⟨hvan, hnumber⟩ := vanByNumber_some hp.hvan
    obtain ⟨v', hv', hve⟩ := hev.van van.id van hvan
    obtain rfl : v = v' := Option.some.inj (hp.hrow.symm.trans hv')
    rw [← hnumber, ← hve.accountNumber]
    exact hlinked.vanByNumber hv'
  constructor
  · intro id v r hv hr
    rcases hc.van_origin hv with ⟨v₀, hv₀, hve⟩ | ⟨cmd, inv, hcall, hinv, -, hi, hexp, -⟩
    · exact old id v₀ v r hv₀ hve hr
    · -- The new account: its invoice is there, and the condition compares the amounts.
      obtain ⟨r₀, hr₀, -⟩ := hev.invoice _ inv hinv
      obtain ⟨r', hr', hre⟩ := hc.evolves.invoice _ r₀ hr₀
      rw [hi, hr'] at hr
      obtain rfl := Option.some.inj hr
      rw [hexp, hre.amountCents]
      exact hcreate cmd r₀ hcall hr₀
  · intro id v hv hs
    cases hc.account_change id with
    | kept hsame => exact h.received id v (hsame ▸ hv) hs
    | opened inv van _ _ _ _ hactive _ _ hafter =>
        obtain rfl : v = van := Option.some.inj (hv.symm.trans hafter)
        rw [hactive] at hs
        cases hs
    | @credited cmd van v₀ hp hv₀ _ hafter =>
        obtain rfl := Option.some.inj (hv.symm.trans hafter)
        have hle := h.received id v₀ hv₀ hs
        have hamount := hp.hamount
        show v₀.expectedAmountCents ≤ v₀.receivedAmountCents + cmd.amountCents
        omega
    | @settled cmd van v₀ hp hv₀ hfull hafter =>
        obtain rfl := Option.some.inj (hv.symm.trans hafter)
        exact hpay cmd v₀ rfl (current hp) hfull

/-- In every run of matching steps the advance equals the invoice in every committed moment,
and an invoice is repaid only after credits of at least its amount. -/
theorem advance_matches_of_run {db : Database} (hdb : db.Initial) {w : ServiceWorld}
    (h : Runs MatchingStep (.start db) w) : ∀ u ≤ w.timeline, u.now.AdvanceMatches := by
  have hfit : Fits (Interference.concurrent (D := Database)) MatchingStep :=
    Or.inl Interference.concurrent_shared
  have hmatched : ∀ u ≤ w.timeline, u.now.Matched := by
    refine Runs.step_invariant (C := fun _ _ => True) hfit (fun _ _ _ => trivial)
      (fun u hu => ?_) ?_ h
    · rw [Timeline.le_start_iff.mp hu]
      constructor
      · intro id v r hv
        rw [Timeline.now_start, hdb.van] at hv
        cases hv
      · intro id v hv
        rw [Timeline.now_start, hdb.van] at hv
        cases hv
    · intro w i env s hw hok hs _ hc ih
      have hev := (hw.evolving hfit (Timeline.commits_start _ _)).evolves hc.seen_le
      obtain ⟨hcreate, hpay⟩ := hok i env s rfl hs hc.rows_ne_nil
      exact (ih _ (le_refl _)).commit hc (linked_of_run hdb.van hw _ (le_refl _)) hev hcreate hpay
  intro u hu
  have hconserved : u.now.Conserved :=
    conserved_of_balanced (balanced_of_run ⟨hdb.van, hdb.ledger⟩ h u hu)
  have hlinked := linked_of_run hdb.van h u hu
  constructor
  · intro v hv
    obtain ⟨e, he, -, hamount⟩ := hconserved.advance v hv
    obtain ⟨r, hr⟩ := hlinked.invoice v.id v (mem_virtualAccounts.mp hv)
    exact ⟨r, e, hr, he, hamount, (hmatched u hu).expected _ v r (mem_virtualAccounts.mp hv) hr⟩
  · intro id r hr hs
    obtain ⟨v, hv, rfl, hsettled⟩ := (repaid_of_run hdb h u hu).status id r hr hs
    refine ⟨v, mem_virtualAccounts.mpr hv, rfl, ?_⟩
    rw [← hconserved.received v (mem_virtualAccounts.mpr hv),
      ← (hmatched u hu).expected _ v r hv hr]
    exact (hmatched u hu).received _ v hv hsettled

/-- The check of `MatchingStep`. -/
def matchingCheck (w : ServiceWorld) : Step → Bool
  | .spawn _ => true
  | .step i env => (w.batch postgres i env).isEmpty || (w.sessions[i]?).all fun s =>
    match s.call with
    | .createVan cmd => (w.db.invoice cmd.invoiceId).all fun r =>
      cmd.expectedAmountCents == r.amountCents
    | .recordPayment cmd => (w.db.vanByNumber cmd.accountNumber).all fun v =>
      decide ((v.receive cmd.amountCents).paidInFull →
        v.expectedAmountCents ≤ v.receivedAmountCents + cmd.amountCents)
    | _ => true

/-- A step that passes `matchingCheck` meets `MatchingStep`. -/
theorem matchingStep_of_check (w : ServiceWorld) (a : Step) (h : matchingCheck w a = true) :
    MatchingStep w a := by
  rintro i env s rfl hs hne
  have hempty : (w.batch postgres i env).isEmpty = false := by simpa using hne
  rw [matchingCheck, hempty, hs, Bool.false_or, Option.all_some] at h
  constructor
  · intro cmd r hcall hr
    rw [hcall] at h
    simpa [hr] using h
  · intro cmd v hcall hv hfull
    rw [hcall] at h
    have h := by simpa only [hv, Option.all_some, decide_eq_true_eq] using h
    exact h hfull

/-- An advance over the amount of the invoice, and one payment of it. -/
theorem advance_matches_of_repaid_invoice : ∃ w : ServiceWorld,
    Runs MatchingStep (.start sampleDb) w ∧ w.db.statusOf sampleId = some .repaid ∧
      ∀ u ≤ w.timeline, u.now.AdvanceMatches := by
  have h : (play matchingCheck (.start sampleDb) (stepsToAccount ++
      .spawn (.recordPayment (samplePayment 1000 "k")) :: steps 4 17)).map
      (fun w => w.db.statusOf sampleId) = some (some .repaid) := by decide +kernel
  obtain ⟨w, hrun, hl⟩ := exists_run_of_play matchingStep_of_check h
  exact ⟨w, hrun, hl, advance_matches_of_run initial_sampleDb hrun⟩

/-- An advance of one paisa for the invoice over 1000: a payment of one paisa repays it. -/
theorem advance_of_another_amount : ∃ w : ServiceWorld,
    Runs RoutedStep (.start sampleDb) w ∧ w.quiescent = true ∧
      (w.db.invoice sampleId).map (fun r => (r.status, r.amountCents)) = some (.repaid, 1000) ∧
      w.db.virtualAccounts.rows.map VirtualAccount.expectedAmountCents = [1] ∧
      ¬ w.db.AdvanceMatches := by
  have h : (play (routedCheck (.createVan ⟨sampleId.asText, 1⟩ :: sampleRequests 1 "k"))
      (.start sampleDb) (stepsToRequested ++ .spawn (.createVan ⟨sampleId.asText, 1⟩) :: steps 3 12 ++
      .spawn (.recordPayment (samplePayment 1 "k")) :: steps 4 17)).map
      (fun w => (w.quiescent, (w.db.invoice sampleId).map fun r => (r.status, r.amountCents),
        w.db.virtualAccounts.rows.map fun v => (v.invoiceId, v.expectedAmountCents))) =
      some (true, some (.repaid, 1000), [(sampleId, 1)]) := by decide +kernel
  obtain ⟨w, hrun, hl⟩ := exists_run_of_play routedStep_of_check h
  simp only [Prod.mk.injEq] at hl
  obtain ⟨r, hr, hstatus⟩ := Option.map_eq_some_iff.mp hl.2.1
  obtain ⟨v, hrows, hv⟩ := List.map_eq_singleton_iff.mp hl.2.2
  simp only [Prod.mk.injEq] at hstatus hv
  refine ⟨w, hrun, hl.1, hl.2.1, ?_, fun hmatch => ?_⟩
  · rw [hrows, List.map_cons, List.map_nil, hv.2]
  · -- The account's own invoice is the one over 1000.
    have hmem : v ∈ w.db.virtualAccounts := by
      show v ∈ w.db.virtualAccounts.rows
      rw [hrows]
      exact List.mem_singleton_self v
    obtain ⟨r', e, hr', -, -, hamount⟩ := hmatch.amounts v hmem
    rw [hv.1, hr] at hr'
    obtain rfl := Option.some.inj hr'
    omega

end Vanguard
