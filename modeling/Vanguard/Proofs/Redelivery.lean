import Vanguard.Library.ReadOnly
import Vanguard.Proofs.Acknowledgement

/-!
# `Vanguard.Proofs.Redelivery`: a booked payment that is delivered again

The bank delivers a payment again until it sees a success. `Database.Booked` is a ledger
that has the key of the payment on its account, with an account that has not expired. No
commit of a service ends this (`Booked.commit`).

`redelivery_spec` is the triple of `recordPayment` at such databases: two `SELECT`
statements and the answer. `redelivery_acknowledged_iff` is the result for whole runs: a
booked payment is acknowledged at every later time, and changes nothing, exactly when its
account has not expired. The guard on `expired` comes before the comparison of the keys, the
guard on `settled` after it.
-/

set_option autoImplicit false

namespace Vanguard

open ReadCommitted Database

/-! ### Booked payments -/

/-- The account `vanId` of the payment has not expired, and has an entry with its key. -/
def Database.Booked (db : Database) (cmd : RecordPaymentCommand) (vanId : Uuid) : Prop :=
  ∃ v e, db.vanByNumber cmd.accountNumber = some v ∧ v.id = vanId ∧ v.status ≠ .expired ∧
    e ∈ db.ledgerEntries ∧ e.virtualAccountId = vanId ∧ e.idempotencyKey = cmd.idempotencyKey

/-- No commit lets an account expire. -/
theorem Commit.van_not_expired {I : Interference Database RowVersion} {born seen t : Log}
    {c : Call} {rows : List RowVersion} (h : Commit I born seen t c rows) {id : Uuid}
    {v v' : VirtualAccount} (hv : t.now.van id = some v) (hstatus : v.status ≠ .expired)
    (hv' : (t.commit rows).now.van id = some v') : v'.status ≠ .expired := by
  cases h.account_change id with
  | kept hsame =>
      rw [hsame, hv] at hv'
      cases hv'
      exact hstatus
  | opened inv van _ _ _ _ _ _ hnone _ =>
      rw [hv] at hnone
      cases hnone
  | credited van v₁ _ hv₁ _ hafter =>
      rw [hafter] at hv'
      cases hv'
      obtain rfl : v = v₁ := Option.some.inj (hv.symm.trans hv₁)
      exact hstatus
  | settled van v₁ _ hv₁ _ hafter =>
      rw [hafter] at hv'
      cases hv'
      exact VanStatus.noConfusion

/-- A commit keeps a payment booked. -/
theorem Database.Booked.commit {I : Interference Database RowVersion} {born seen t : Log}
    {c : Call} {rows : List RowVersion} {cmd : RecordPaymentCommand} {vanId : Uuid}
    (h : t.now.Booked cmd vanId) (hc : Commit I born seen t c rows)
    (hlinked : (t.commit rows).now.Linked) : (t.commit rows).now.Booked cmd vanId := by
  obtain ⟨v, e, hv, hid, hstatus, he, hentry, hkey⟩ := h
  obtain ⟨hvan, hnumber⟩ := vanByNumber_some hv
  obtain ⟨v', hv', hev⟩ := hc.evolves.van v.id v hvan
  have hfound := hlinked.vanByNumber hv'
  rw [hev.accountNumber, hnumber] at hfound
  exact ⟨v', e, hfound, hev.id.trans hid, hc.van_not_expired hvan hstatus hv',
    hc.evolves.ledger.subset he, hentry, hkey⟩

/-- In a run from a database with linked accounts a booked payment stays booked. -/
theorem booked_of_run {db : Database} (hdb : db.Linked) {cmd : RecordPaymentCommand}
    {vanId : Uuid} (hbooked : db.Booked cmd vanId) {ok : ServiceWorld → Step → Prop}
    {w : ServiceWorld} (h : Runs ok (.start db) w) : w.db.Booked cmd vanId := by
  have hrun : ∀ u ≤ w.timeline, u.now.Linked ∧ u.now.Booked cmd vanId := by
    refine Runs.invariant (C := fun _ _ => True) (Or.inl Interference.concurrent_shared)
      (fun _ _ _ => trivial) (Timeline.commits_start _ _) (fun u hu => ?_) ?_ h
    · rw [Timeline.le_start_iff.mp hu]
      exact ⟨hdb, hbooked⟩
    · intro c born seen t rows _ hc hev ih
      obtain ⟨hlinked, ht⟩ := ih t (le_refl t)
      have hnew := hlinked.commit hc (hev.evolves hc.seen_le)
      exact ⟨hnew, ht.commit hc hnew⟩
  exact (hrun _ (le_refl _)).2

/-! ### The call -/

section
variable {J : Database → Prop} {adm : Env → Prop}

/-- A `SELECT` on the pool of a call that commits nothing. -/
theorem readOnly_select {n : Nat} {q : Sql} {f : Database → q.Rows}
    {Q : Except JsError q.Rows → Nat → Prop}
    (hread : ∀ env db, q.exec env env db = .ok ([], f db))
    (hok : ∀ db, J db → Q (.ok (f db)) n)
    (herr : Faulty adm → Q (.error (.pg .connectionFailure)) n) :
    Await.wp (postgres.readOnly J adm) (poolQuery q) (n + 1) Q := by
  refine readOnly_pool (f := f) (fun env db => ?_) hok fun env e hadm hf => ?_
  · simp only [postgres, hread]
    rfl
  · obtain ⟨rfl, hfaulty⟩ := injected_iff.mp ⟨env, hadm, hf⟩
    exact herr hfaulty

/-- The call throws `err`, or it meets an injected failure. -/
def Throws (adm : Env → Prop) (err : JsError) {α : Type} (r : Except JsError α) : Prop :=
  r = .error err ∨ (r = .error (.pg .connectionFailure) ∧ Faulty adm)

/-- Without failures the call throws `err`. -/
theorem Throws.eq_of_healthy {err : JsError} {α : Type} {r : Except JsError α}
    (h : Throws (fun env => env.fault = false) err r) : r = .error err := by
  rcases h with h | ⟨-, env, hadm, hf⟩
  · exact h
  · rw [hadm] at hf
    cases hf

/-- Two `SELECT` statements, and the payment is a duplicate. -/
theorem recordPayment_booked (adm : Env → Prop) (cmd : RecordPaymentCommand) (vanId : Uuid) :
    Await.wp (postgres.readOnly (fun db => db.Booked cmd vanId) adm)
      (VanService.recordPayment cmd) 2
      fun r _ => Throws adm (.duplicatePayment cmd.idempotencyKey) r := by
  rw [VanService.recordPayment, VanRepository.findByAccountNumber]
  simp only [Await.wp_bind, Await.wp_pure]
  refine readOnly_select (f := fun db => (db.vanByNumber cmd.accountNumber).toList)
    (fun _ _ => rfl) (fun db hdb => ?_) fun hf => Or.inr ⟨rfl, hf⟩
  obtain ⟨v, -, hv, hid, hstatus, -⟩ := hdb
  simp only [hv, Option.toList_some, List.head?_cons]
  rw [if_neg hstatus, Await.wp_bind, hid]
  -- The entries are read later than the account, and still have the key.
  refine readOnly_select (f := fun db => (db.entriesOf vanId).insertionSort fun a b =>
    a.createdAt ≤ b.createdAt) (fun _ _ => rfl) (fun db hdb => ?_) fun hf => Or.inr ⟨rfl, hf⟩
  obtain ⟨-, e, -, -, -, he, hentry, hkey⟩ := hdb
  have hdup : isDuplicate ((db.entriesOf vanId).insertionSort fun a b =>
      a.createdAt ≤ b.createdAt) cmd.idempotencyKey = true := by
    refine List.any_eq_true.mpr ⟨e, ?_, by simp [hkey]⟩
    rw [List.mem_insertionSort]
    exact List.mem_filter.mpr ⟨he, by simp [hentry]⟩
  dsimp only
  rw [if_pos hdup]
  exact Or.inl rfl

/-- The account of the payment has expired. -/
def Database.ExpiredAccount (db : Database) (cmd : RecordPaymentCommand) : Prop :=
  ∃ v, db.vanByNumber cmd.accountNumber = some v ∧ v.status = .expired

/-- One `SELECT` statement, and the payment is refused. Its key is not looked at. -/
theorem recordPayment_expired (adm : Env → Prop) (cmd : RecordPaymentCommand) :
    Await.wp (postgres.readOnly (fun db => db.ExpiredAccount cmd) adm)
      (VanService.recordPayment cmd) 1 fun r _ =>
        Throws adm (.error ("Virtual account " ++ cmd.accountNumber ++ " has expired")) r := by
  rw [VanService.recordPayment, VanRepository.findByAccountNumber]
  simp only [Await.wp_bind, Await.wp_pure]
  refine readOnly_select (f := fun db => (db.vanByNumber cmd.accountNumber).toList)
    (fun _ _ => rfl) (fun db hdb => ?_) fun hf => Or.inr ⟨rfl, hf⟩
  obtain ⟨v, hv, hstatus⟩ := hdb
  simp only [hv, Option.toList_some, List.head?_cons]
  rw [if_pos hstatus]
  exact Or.inl rfl

/-- The reply of a call that throws is its error. -/
theorem readOnly_call {n : Nat} {cmd : RecordPaymentCommand} {err : JsError}
    (h : Await.wp (postgres.readOnly J adm) (VanService.recordPayment cmd) n
      fun r _ => Throws adm err r) :
    (Call.recordPayment cmd).body.run.wp (postgres.readOnly J adm) n
      fun r _ => Throws adm err r := by
  show Await.wp _ (do let r ← VanService.recordPayment cmd; pure (Reply.payment r)) _ _
  rw [Await.wp_bind]
  refine Await.wp_mono readOnly_mono h fun r m hr => ?_
  rcases hr with rfl | ⟨rfl, hf⟩
  · exact Or.inl rfl
  · exact Or.inr ⟨rfl, hf⟩

end

/-! ### Whole runs -/

/-- The steps in which no failure hits a delivery of the payment. -/
def HealthyDelivery (cmd : RecordPaymentCommand) (w : ServiceWorld) (a : Step) : Prop :=
  ∀ i env s, a = .step i env → w.sessions[i]? = some s → s.call = .recordPayment cmd →
    env.fault = false

/-- What the bank relies on when it delivers the payment again, in the runs from `t₀`.

- `unchanged`: a delivery commits nothing, whatever fails;
- `duplicate`: its answer is the duplicate, with status 200;
- `returns`: it comes to an answer. -/
structure AcknowledgedAgain (t₀ : Log) (cmd : RecordPaymentCommand) : Prop where
  unchanged : ∀ w, Runs (fun _ _ => True) t₀ w → ∀ i s env, w.sessions[i]? = some s →
    s.call = .recordPayment cmd → w.batch postgres i env = []
  duplicate : ∀ w, Runs (HealthyDelivery cmd) t₀ w → ∀ s ∈ w.sessions,
    s.call = .recordPayment cmd → ∀ r, s.prog = .ret r →
      r = .error (.duplicatePayment cmd.idempotencyKey) ∧ (webhookAnswer r).status = 200
  returns : ∀ w, Runs (HealthyDelivery cmd) t₀ w → ∀ i s env, w.sessions[i]? = some s →
    s.call = .recordPayment cmd → env.fault = false → ∃ n w' s' r,
      w.exec postgres (fun c => c.body.run) (fun _ _ => true)
        (List.replicate n (.step i env)) = some w' ∧
      w'.sessions[i]? = some s' ∧ s'.prog = .ret r

/-- The sessions of the payment in a run on which `J` stays true. -/
theorem reads_of_run {J : Database → Prop} {adm : Env → Prop} {n : Nat} {err : JsError}
    {cmd : RecordPaymentCommand} {ok : ServiceWorld → Step → Prop} {t₀ : Log}
    (hspec : Await.wp (postgres.readOnly J adm) (VanService.recordPayment cmd) n
      fun r _ => Throws adm err r)
    (hJ : ∀ w, Runs ok t₀ w → J w.db)
    (hadm : ∀ w i env s, ok w (.step i env) → w.sessions[i]? = some s →
      s.call = .recordPayment cmd → adm env) {w : ServiceWorld} (h : Runs ok t₀ w) :
    ∀ s ∈ w.sessions, s.call = .recordPayment cmd →
      ∃ m, s.Reads postgres J adm (Throws adm err) m := by
  refine Run.reads (C := fun c => c = .recordPayment cmd) (n := n) rfl hJ hadm ?_ h
  rintro c rfl
  exact readOnly_call hspec

/-- A booked payment that is delivered again is acknowledged at every later time and changes
nothing. -/
theorem acknowledgedAgain_of_booked {db : Database} (hdb : db.Linked)
    {cmd : RecordPaymentCommand} {vanId : Uuid} (hbooked : db.Booked cmd vanId) :
    AcknowledgedAgain (.start db) cmd where
  unchanged w hw i s env hs hcall := by
    obtain ⟨m, hm⟩ := reads_of_run (recordPayment_booked (fun _ => True) cmd vanId)
      (fun w hw => booked_of_run hdb hbooked hw) (fun _ _ _ _ _ _ _ => trivial) hw s
      (List.mem_of_getElem? hs) hcall
    exact hm.batch hs (booked_of_run hdb hbooked hw) trivial
  duplicate w hw s hs hcall r hr := by
    obtain ⟨m, hm⟩ := reads_of_run (recordPayment_booked (fun env => env.fault = false) cmd vanId)
      (fun w hw => booked_of_run hdb hbooked hw) (fun w i env s ha hi hc => ha i env s rfl hi hc)
      hw s hs hcall
    obtain rfl := (hm.post_of_ret hr).eq_of_healthy
    exact ⟨rfl, rfl⟩
  returns w hw i s env hs hcall henv := by
    obtain ⟨m, hm⟩ := reads_of_run (recordPayment_booked (fun env => env.fault = false) cmd vanId)
      (fun w hw => booked_of_run hdb hbooked hw) (fun w i env s ha hi hc => ha i env s rfl hi hc)
      hw s (List.mem_of_getElem? hs) hcall
    obtain ⟨n, -, w', s', r, hexec, -, hs', -, hr, -⟩ :=
      hm.answers (p := fun _ _ => true) hs (booked_of_run hdb hbooked hw) henv
        (fun c => c.body.run) fun _ => rfl
    exact ⟨n, w', s', r, hexec, hs', hr⟩

/-- The check of `HealthyDelivery`: no step fails. -/
def healthyCheck (_ : ServiceWorld) : Step → Bool
  | .spawn _ => true
  | .step _ env => !env.fault

/-- A step that passes `healthyCheck` meets `HealthyDelivery`. -/
theorem healthyDelivery_of_check (cmd : RecordPaymentCommand) (w : ServiceWorld) (a : Step)
    (h : healthyCheck w a = true) : HealthyDelivery cmd w a := by
  rintro i env s rfl - -
  simpa [healthyCheck] using h

/-- A delivery to an expired account is refused. -/
theorem not_acknowledgedAgain_of_expired {db : Database} {cmd : RecordPaymentCommand}
    (hexpired : db.ExpiredAccount cmd) : ¬ AcknowledgedAgain (.start db) cmd := by
  intro h
  -- The run: the call starts, and its session goes on to its answer.
  obtain ⟨w, s, hspawn, hdb, hs, hcall, hreads⟩ : ∃ (w : ServiceWorld) (s : _),
      (World.start (.start db)).step postgres (fun c => c.body.run)
        (.spawn (.recordPayment cmd)) = some w ∧ w.db = db ∧ w.sessions[0]? = some s ∧
      s.call = .recordPayment cmd ∧ s.Reads postgres (fun db => db.ExpiredAccount cmd)
        (fun env => env.fault = false)
        (Throws (fun env => env.fault = false)
          (.error ("Virtual account " ++ cmd.accountNumber ++ " has expired"))) 1 :=
    ⟨_, _, rfl, rfl, rfl, rfl, rfl, readOnly_call (recordPayment_expired _ cmd)⟩
  obtain ⟨n, -, w', s', r, hexec, -, hs', hcall', hr, hthrows⟩ :=
    hreads.answers (p := healthyCheck) hs (hdb ▸ hexpired) (show sampleEnv.fault = false from rfl)
      (fun c => c.body.run) fun _ => rfl
  have hrun : Runs (HealthyDelivery cmd) (.start db) w' := by
    refine Run.trans (Run.step _ Run.refl ?_ hspawn)
      (Run.of_exec (healthyDelivery_of_check cmd) hexec)
    exact healthyDelivery_of_check cmd _ _ rfl
  obtain ⟨hdup, -⟩ := h.duplicate w' hrun s' (List.mem_of_getElem? hs') (hcall'.trans hcall) r hr
  rw [hthrows.eq_of_healthy] at hdup
  cases hdup

/-- Take a payment whose key the ledger has on its account. It is acknowledged whenever it is
delivered again, and changes nothing, if and only if the account has not expired. -/
theorem redelivery_acknowledged_iff {db : Database} (hdb : db.Linked)
    {cmd : RecordPaymentCommand} {v : VirtualAccount} {e : LedgerEntry}
    (hv : db.vanByNumber cmd.accountNumber = some v) (he : e ∈ db.ledgerEntries)
    (hentry : e.virtualAccountId = v.id) (hkey : e.idempotencyKey = cmd.idempotencyKey) :
    AcknowledgedAgain (.start db) cmd ↔ v.status ≠ .expired := by
  constructor
  · intro h hexpired
    exact not_acknowledgedAgain_of_expired ⟨v, hv, hexpired⟩ h
  · intro hstatus
    exact acknowledgedAgain_of_booked hdb ⟨v, e, hv, rfl, hstatus, he, hentry, hkey⟩

/-! ### A payment on a settled and on an expired account -/

/-- The sample invoice with an account of the given status and one payment on it. -/
def bookedDb (status : VanStatus) : Database :=
  { sampleDb with
      invoices :=
        { rows := [⟨sampleId, "INV-1", sampleSupplier, sampleBuyer, 1000, "INR", 100, .repaid, none,
            1, 1⟩]
          nodup := by decide }
      virtualAccounts :=
        { rows := [⟨sampleId, sampleId, "VSE11000", "YESB0CMSNOC", 1000, 1000, status, 1, 1⟩]
          nodup := List.nodup_singleton _ }
      ledgerEntries := [((samplePayment 1000 "k1").credit sampleId).row sampleEnv] }

/-- The sample database with a booked key has its accounts linked. -/
theorem linked_bookedDb (status : VanStatus) : (bookedDb status).Linked := by
  have only : ∀ id v, (bookedDb status).van id = some v →
      id = sampleId ∧ v.invoiceId = sampleId := by
    intro id v hv
    have hid := van_id hv
    obtain rfl := List.mem_singleton.mp (ReadCommitted.Table.mem_of_get? hv)
    exact ⟨hid.symm, rfl⟩
  refine ⟨fun id v hv => ?_, ?_, ?_⟩
  · rw [(only id v hv).2]
    exact ⟨_, rfl⟩
  · exact fun id id' v v' hv hv' _ => (only id v hv).1.trans (only id' v' hv').1.symm
  · exact fun id id' v v' hv hv' _ => (only id v hv).1.trans (only id' v' hv').1.symm

/-- The payment that has settled its account is acknowledged again. -/
theorem redelivery_acknowledged_settled :
    AcknowledgedAgain (.start (bookedDb .settled)) (samplePayment 1000 "k1") :=
  (redelivery_acknowledged_iff (linked_bookedDb .settled) rfl List.mem_cons_self rfl rfl).mpr
    VanStatus.noConfusion

/-- The same payment on an expired account: the ledger has its key, and the bank gets an error
with status 400. -/
theorem redelivery_expired_refused :
    (bookedDb .expired).Linked ∧
      (bookedDb .expired).ledgerEntries.map LedgerEntry.idempotencyKey = ["k1"] ∧
      (handlePayment (samplePayment 1000 "k1") (fun _ => sampleEnv)
        (.start (bookedDb .expired))).1 =
          ⟨400, some "BAD_REQUEST", "Virtual account VSE11000 has expired"⟩ ∧
      ¬ AcknowledgedAgain (.start (bookedDb .expired)) (samplePayment 1000 "k1") := by
  refine ⟨linked_bookedDb .expired, rfl, by decide +kernel, ?_⟩
  exact not_acknowledgedAgain_of_expired ⟨_, rfl, rfl⟩

end Vanguard
