import Vanguard.Proofs.Accounts
import Vanguard.Proofs.Conservation

/-!
# `Vanguard.Proofs.Acknowledgement`: which acknowledged payments are recorded

`handlePayment` is the webhook handler on a body that has passed its schema. It answers
200 for a payment it has recorded, and for a payment that one of the two layers takes for a
duplicate. Both layers compare the key and nothing else.

`acknowledged_recorded_iff` says exactly in which reachable states every acknowledged
payment is recorded (`Database.Recordable`), and `advance_key_acknowledged` is a payment
that is acknowledged and dropped.
-/

set_option autoImplicit false

namespace Vanguard

open ReadCommitted Database

/-! ### The handler -/

/-- The handler of `POST /vans/webhook/payment` on the log `t`, its commands in the
environments `envs`: the answer, and the log after it. -/
def handlePayment (cmd : RecordPaymentCommand) (envs : Nat → Env) (t : Log) :
    HttpAnswer × Log :=
  let r := postgres.eval (Call.recordPayment cmd).body.run envs t .idle
  (webhookAnswer r.1, r.2.1)

/-- The entry is the credit of this payment to the account. -/
def IsPayment (e : LedgerEntry) (van : VirtualAccount) (cmd : RecordPaymentCommand) : Prop :=
  e.virtualAccountId = van.id ∧ e.entryType = .credit ∧ e.amountCents = cmd.amountCents

/-- The ledger has the payment, on the account with its number. -/
def Database.Recorded (db : Database) (cmd : RecordPaymentCommand) : Prop :=
  ∃ van e, db.vanByNumber cmd.accountNumber = some van ∧ e ∈ db.ledgerEntries ∧
    e.idempotencyKey = cmd.idempotencyKey ∧ IsPayment e van cmd

/-- The guards take no other entry for the payment. An active account is compared with the
whole ledger, a settled one with its own entries, and an expired one is refused. -/
def Database.Recordable (db : Database) (cmd : RecordPaymentCommand) : Prop :=
  ∀ van e, db.vanByNumber cmd.accountNumber = some van → e ∈ db.ledgerEntries →
    e.idempotencyKey = cmd.idempotencyKey →
    van.status = .active ∨ (van.status = .settled ∧ e.virtualAccountId = van.id) →
    IsPayment e van cmd

/-- How the handler ends: nothing is committed, for a reason, or the payment is. -/
theorem handlePayment_cases (adm : Env → Prop) (cmd : RecordPaymentCommand) (envs : Nat → Env)
    (henvs : ∀ n, adm (envs n)) (t : Log) :
    (∃ e, handlePayment cmd envs t = (webhookAnswer (.error e), t) ∧
      PaymentRefused Interference.alone adm cmd t t e) ∨
    (∃ rows, (handlePayment cmd envs t).2 = t.commit rows ∧
      Commit Interference.alone t t t (.recordPayment cmd) rows) := by
  obtain ⟨seen, -, hended⟩ := postgres.eval_of_wp (Call.recordPayment cmd).body.run envs henvs
    ⟨t, none, .idle⟩ (Call.spec Interference.alone adm t (.recordPayment cmd))
  unfold handlePayment
  dsimp only at hended ⊢
  generalize postgres.eval (Call.recordPayment cmd).body.run envs t .idle = out at hended ⊢
  obtain ⟨r, t', tx⟩ := out
  dsimp only at hended ⊢
  generalize seen.getD t' = s at hended
  rcases hended.alone fun _ _ => Call.noConfusion with ⟨e, rfl, rfl, hwhy⟩ | ⟨rows, hc, rfl⟩
  · exact Or.inl ⟨e, rfl, hwhy⟩
  · exact Or.inr ⟨rows, rfl, hc⟩

/-- Only a duplicate is acknowledged without a commit. -/
theorem acknowledged_error {e : JsError} (h : (webhookAnswer (.error e)).status = 200) :
    ∃ key, e = .duplicatePayment key := by
  rcases (webhookAnswer_status_eq _).mp h with ⟨_, he⟩ | ⟨key, he⟩
  · cases he
  · exact ⟨key, Except.error.inj he⟩

/-! ### Keys -/

/-- A key belongs to one entry. -/
theorem Database.Conserved.entry_eq {db : Database} (h : db.Conserved) {e e' : LedgerEntry}
    (he : e ∈ db.ledgerEntries) (he' : e' ∈ db.ledgerEntries)
    (hkey : e.idempotencyKey = e'.idempotencyKey) : e = e' :=
  List.inj_on_of_nodup_map h.keys he he' hkey

/-! ### Acknowledged payments -/

/-- What a committed payment leaves in the ledger. -/
theorem Commit.recorded {I : Interference Database RowVersion} {born seen t : Log}
    {cmd : RecordPaymentCommand} {rows : List RowVersion}
    (h : Commit I born seen t (.recordPayment cmd) rows) (hlinked : t.now.Linked)
    (hev : seen.now.Evolves t.now) : (t.commit rows).now.Recorded cmd := by
  obtain ⟨van, v, start, hvan, -, -, hledger⟩ := h.payment
  obtain ⟨hseen, hnumber⟩ := vanByNumber_some hvan
  obtain ⟨v', hv', hvev⟩ := (hev.trans h.evolves).van van.id van hseen
  have hfound := (hlinked.commit h hev).vanByNumber hv'
  rw [hvev.accountNumber, hnumber] at hfound
  refine ⟨v', (cmd.credit van.id).row start, hfound, ?_, rfl, hvev.id.symm, rfl, rfl⟩
  rw [hledger]
  exact List.mem_append_right _ (List.mem_singleton_self _)

/-- What every reachable state offers to the handler. -/
structure Database.Reconciled (db : Database) : Prop where
  linked : db.Linked
  trimmed : db.KeysTrimmed
  conserved : db.Conserved

/-- Every database a run of the routes reaches is reconciled. -/
theorem reconciled_of_run {db : Database} (hdb : db.Initial) {w : ServiceWorld}
    (h : Runs RoutedStep (.start db) w) : w.db.Reconciled where
  linked := linked_of_run hdb.van h _ (le_refl _)
  trimmed := keysTrimmed_of_run hdb.ledger h _ (le_refl _)
  conserved := conserved_of_balanced
    (balanced_of_run ⟨hdb.van, hdb.ledger⟩ h _ (le_refl _))

section
variable {t : Log} {cmd : RecordPaymentCommand}

/-- In a state in which the payment is recordable, an acknowledged payment is recorded. -/
theorem recorded_of_recordable (ht : t.now.Reconciled)
    (hkey : trim cmd.idempotencyKey = cmd.idempotencyKey) (h : t.now.Recordable cmd)
    (envs : Nat → Env) (hok : (handlePayment cmd envs t).1.status = 200) :
    (handlePayment cmd envs t).2.now.Recorded cmd := by
  rcases handlePayment_cases (fun _ => True) cmd envs (fun _ => trivial) t with
    ⟨err, hanswer, hwhy⟩ | ⟨rows, hlog, hc⟩
  · rw [hanswer] at hok ⊢
    obtain ⟨key, rfl⟩ := acknowledged_error hok
    cases hwhy with
    | layerOne van u hvan hexpired hu _ hdup =>
        -- The entry that was found is one of the account, and so the payment itself.
        obtain rfl : t = u := hu
        obtain ⟨e, he, hid, hk⟩ := (isDuplicate_iff ht.trimmed hkey van.id).mp hdup
        refine ⟨van, e, hvan, he, hk, h van e hvan he hk ?_⟩
        cases hstatus : van.status with
        | active => exact Or.inl rfl
        | settled => exact Or.inr ⟨rfl, hid⟩
        | expired => exact absurd hstatus hexpired
    | layerTwo van u hvan hactive hu _ hused =>
        -- The entry may be one of any account.
        obtain rfl : t = u := hu
        obtain ⟨e, he, hk⟩ := hused
        exact ⟨van, e, hvan, he, hk, h van e hvan he hk (Or.inl hactive)⟩
  · rw [hlog]
    exact hc.recorded ht.linked (Evolves.refl _)

/-- In a state in which the payment is not recordable, the handler acknowledges it without
recording it, when nothing fails. -/
theorem dropped_of_not_recordable (ht : t.now.Reconciled)
    (hkey : trim cmd.idempotencyKey = cmd.idempotencyKey) (hpos : 0 < cmd.amountCents)
    (hmax : cmd.amountCents ≤ maxSafeInteger) (h : ¬ t.now.Recordable cmd) (env : Env)
    (henv : env.fault = false) : (handlePayment cmd (fun _ => env) t).1.status = 200 ∧
      ¬ (handlePayment cmd (fun _ => env) t).2.now.Recorded cmd := by
  simp only [Recordable, not_forall] at h
  obtain ⟨van, e, hvan, he, hk, hstatus, hother⟩ := h
  -- The entry has the only key, so the credit of the payment cannot be there.
  have hnot : ¬ t.now.Recorded cmd := by
    rintro ⟨van', e', hvan', he', hk', hpayment⟩
    obtain rfl : van = van' := Option.some.inj (hvan.symm.trans hvan')
    obtain rfl : e = e' := ht.conserved.entry_eq he he' (hk.trans hk'.symm)
    exact hother hpayment
  rcases handlePayment_cases (fun x => x = env) cmd (fun _ => env) (fun _ => rfl) t with
    ⟨err, hanswer, hwhy⟩ | ⟨rows, -, hc⟩
  · rw [hanswer]
    refine ⟨?_, hnot⟩
    -- Of the reasons, only the two layers are possible here.
    cases hwhy with
    | fault hf =>
        obtain ⟨x, rfl, hx⟩ := hf
        rw [henv] at hx
        cases hx
    | noAccount hnone =>
        rw [hvan] at hnone
        cases hnone
    | expired van' _ hvan' hexpired =>
        obtain rfl : van = van' := Option.some.inj (hvan.symm.trans hvan')
        rcases hstatus with hs | ⟨hs, -⟩ <;> rw [hs] at hexpired <;> cases hexpired
    | layerOne => rfl
    | settled van' u _ hvan' hsettled hu _ hdup =>
        obtain rfl : t = u := hu
        obtain rfl : van = van' := Option.some.inj (hvan.symm.trans hvan')
        rcases hstatus with hs | ⟨-, hid⟩
        · rw [hs] at hsettled
          cases hsettled
        · rw [(isDuplicate_iff ht.trimmed hkey van.id).mpr ⟨e, he, hid, hk⟩] at hdup
          cases hdup
    | layerTwo => rfl
    | amount err hamount =>
        refine absurd ⟨hpos, hmax.trans ?_⟩ hamount
        decide
    | balance _ _ _ _ _ _ _ _ hfresh => exact absurd hk (hfresh e he)
    | noInvoice van' _ hvan' hnone =>
        obtain rfl : van = van' := Option.some.inj (hvan.symm.trans hvan')
        obtain ⟨r, hr⟩ := ht.linked.invoice van.id van (vanByNumber_some hvan).1
        rw [hr] at hnone
        cases hnone
  · -- A commit would have found the key free.
    obtain ⟨_, _, _, _, _, hfresh, _⟩ := hc.payment
    exact absurd hk (hfresh e he)

end

/-- In every reachable state: each acknowledged payment is recorded if and only if the
payment is recordable. -/
theorem acknowledged_recorded_iff {db : Database} (hdb : db.Initial) {w : ServiceWorld}
    (h : Runs RoutedStep (.start db) w) {body cmd : RecordPaymentCommand}
    (hbody : recordPaymentSchema body = some cmd) :
    (∀ envs, (handlePayment cmd envs w.timeline).1.status = 200 →
      (handlePayment cmd envs w.timeline).2.now.Recorded cmd) ↔ w.db.Recordable cmd := by
  have ht : w.timeline.now.Reconciled := reconciled_of_run hdb h
  obtain ⟨hkey, hpos, hmax⟩ := recordPaymentSchema_some hbody
  constructor
  · intro hall
    by_contra hnot
    obtain ⟨hok, hdropped⟩ :=
      dropped_of_not_recordable ht hkey hpos hmax hnot sampleEnv rfl
    exact hdropped (hall _ hok)
  · exact recorded_of_recordable ht hkey

/-- The first payment to a new account is recorded when it is acknowledged. -/
theorem acknowledged_recorded_first_payment : ∃ w : ServiceWorld,
    Runs RoutedStep (.start sampleDb) w ∧ ∀ envs,
      (handlePayment (samplePayment 400 "k1") envs w.timeline).1.status = 200 →
      (handlePayment (samplePayment 400 "k1") envs w.timeline).2.now.Recorded
        (samplePayment 400 "k1") := by
  have h : (play (routedCheck (sampleRequests 1000 "k1")) (.start sampleDb) stepsToAccount).map
      (fun w => w.db.ledgerEntries.map LedgerEntry.idempotencyKey) = some ["advance-1"] := by
    decide +kernel
  obtain ⟨w, hrun, hkeys⟩ := exists_run_of_play routedStep_of_check h
  have hbody : recordPaymentSchema (samplePayment 400 "k1") = some (samplePayment 400 "k1") := by
    decide +kernel
  refine ⟨w, hrun, (acknowledged_recorded_iff initial_sampleDb hrun
    hbody).mpr ?_⟩
  intro van e _ he hk
  have hmem := List.mem_map_of_mem (f := LedgerEntry.idempotencyKey) he
  rw [hkeys, hk] at hmem
  exact absurd hmem (by decide)

/-- A payment with the key of the advance of its own account is acknowledged, and the ledger
has no credit afterwards. -/
theorem advance_key_acknowledged : ∃ w : ServiceWorld,
    Runs RoutedStep (.start sampleDb) w ∧
      recordPaymentSchema (samplePayment 400 "advance-1") =
        some (samplePayment 400 "advance-1") ∧
      (handlePayment (samplePayment 400 "advance-1") (fun _ => sampleEnv) w.timeline).1.status =
        200 ∧
      ¬ (handlePayment (samplePayment 400 "advance-1") (fun _ => sampleEnv)
        w.timeline).2.now.Recorded (samplePayment 400 "advance-1") := by
  have h : (play (routedCheck (sampleRequests 1000 "k1")) (.start sampleDb) stepsToAccount).map
      (fun w =>
        let out := handlePayment (samplePayment 400 "advance-1") (fun _ => sampleEnv) w.timeline
        (out.1.status, out.2.now.ledgerEntries.map LedgerEntry.entryType)) =
      some (200, [.debit]) := by decide +kernel
  obtain ⟨w, hrun, hl⟩ := exists_run_of_play routedStep_of_check h
  simp only [Prod.mk.injEq] at hl
  refine ⟨w, hrun, by decide +kernel, hl.1, ?_⟩
  rintro ⟨van, e, -, he, -, -, hcredit, -⟩
  have hmem := List.mem_map_of_mem (f := LedgerEntry.entryType) he
  rw [hl.2, hcredit] at hmem
  exact absurd hmem (by decide)

end Vanguard
