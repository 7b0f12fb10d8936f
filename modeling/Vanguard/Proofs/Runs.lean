import Vanguard.Proofs.Evolution

/-!
# `Vanguard.Proofs.Runs`: from the calls to the runs

The invariant rules of the services. They instantiate the rules of the library with
`Call.spec`, so that a proof about runs only looks at `Commit` and `Ended`.

* `Runs.commit_induction`: a property of the committed log, kept by every commit of a run;
* `Runs.invariant`: a property of every committed moment, when the proof of a commit may
  use it at every earlier moment;
* `Runs.step_invariant`: the same for runs with a condition on each step;
* `Runs.ended`: how a finished call has ended.
-/

set_option autoImplicit false

namespace Vanguard

open ReadCommitted

/-- A database before the first request: the organisations are the only rows. -/
structure Database.Initial (db : Database) : Prop where
  invoice : ∀ id, db.invoice id = none
  van : ∀ id, db.van id = none
  ledger : db.ledgerEntries = []
  events : db.invoiceEvents = []

/-- The steps of which each call comes from a request. -/
def RoutedStep (_ : ServiceWorld) (a : Step) : Prop := ∀ c, a = .spawn c → c.Routed

section
variable {ok : ServiceWorld → Step → Prop} {t₀ : Log} {w : ServiceWorld}
  {I : Interference Database RowVersion} {C : Call → Log → Prop}

/-- `Call.spec` in the form that the rules of the library ask for. -/
theorem spec_at (I : Interference Database RowVersion) (adm : Env → Prop)
    (ok : ServiceWorld → Step → Prop) (w : ServiceWorld) (c : Call) (_ : ok w (.spawn c))
    (t : Log) : c.body.run.wp (postgres.rely I adm (guarantee I t c)) ⟨t, none, .idle⟩
      (Ends I adm t c) :=
  Call.spec I adm t c

/-- The invariant rule for the committed log. `C` is what the steps allow of a call and of
the moment at which it starts. The proof for a commit may use the run before it. -/
theorem Runs.commit_induction {J : Log → Prop} (hfit : Fits I ok)
    (hcalls : ∀ w c, ok w (.spawn c) → C c w.timeline) (h₀ : J t₀)
    (hstep : ∀ w i env s, Runs ok t₀ w → ok w (.step i env) → w.sessions[i]? = some s →
      C s.call s.born →
      Commit I s.born (s.seen.getD w.timeline) w.timeline s.call (w.batch postgres i env) →
      J w.timeline → J (w.timeline.commit (w.batch postgres i env)))
    (h : Runs ok t₀ w) : J w.timeline := by
  refine Run.timeline_induction hfit (fun _ _ _ _ => trivial)
    (spec_at I (fun _ => True) ok) h₀ ?_ h
  intro w i env s hw hok hs _ hg hJ
  exact hstep w i env s hw hok hs (hw.session_born (fun w c _ => hcalls w c) s
    (List.mem_of_getElem? hs)) hg hJ

/-- A run goes on from its first log. -/
theorem Runs.le (hfit : Fits I ok) (h : Runs ok t₀ w) : t₀ ≤ w.timeline := by
  refine Runs.commit_induction (C := fun _ _ => True) (J := fun t => t₀ ≤ t) hfit
    (fun _ _ _ => trivial) (le_refl t₀) ?_ h
  intro w i env s _ _ _ _ _ ih
  exact Timeline.le_commit _ ih

/-- Every commit of a run evolves the database. -/
theorem Runs.evolving (hfit : Fits I ok) (h₀ : Evolving t₀) (h : Runs ok t₀ w) :
    Evolving w.timeline := by
  refine Runs.commit_induction (C := fun _ _ => True) hfit (fun _ _ _ => trivial) h₀ ?_ h
  intro w i env s _ _ _ _ hc ih
  exact Timeline.commits_commit ih hc.evolves

/-- The invariant rule for every committed moment of a run with a condition on its steps. The
proof for a commit may use the run before it and the invariant at every earlier moment. -/
theorem Runs.step_invariant {Inv : Log → Prop} (hfit : Fits I ok)
    (hcalls : ∀ w c, ok w (.spawn c) → C c w.timeline) (h₀ : ∀ u ≤ t₀, Inv u)
    (hstep : ∀ w i env s, Runs ok t₀ w → ok w (.step i env) → w.sessions[i]? = some s →
      C s.call s.born →
      Commit I s.born (s.seen.getD w.timeline) w.timeline s.call (w.batch postgres i env) →
      (∀ u ≤ w.timeline, Inv u) → Inv (w.timeline.commit (w.batch postgres i env)))
    (h : Runs ok t₀ w) : ∀ u ≤ w.timeline, Inv u := by
  refine Runs.commit_induction (J := fun t => ∀ u ≤ t, Inv u) hfit hcalls h₀ ?_ h
  intro w i env s hw hok hs hC hc ih u hu
  -- The new moment, or an earlier one.
  rcases Timeline.le_commit_iff.mp hu with rfl | hu
  · exact hstep w i env s hw hok hs hC hc ih
  · exact ih u hu

/-- The invariant rule for every committed moment. The proof for a commit may use the
invariant at the moment of the commit and at every earlier one. -/
theorem Runs.invariant {Inv : Log → Prop} (hfit : Fits I ok)
    (hcalls : ∀ w c, ok w (.spawn c) → C c w.timeline) (hev₀ : Evolving t₀)
    (h₀ : ∀ u ≤ t₀, Inv u)
    (hstep : ∀ c born seen t rows, C c born → Commit I born seen t c rows → Evolving t →
      (∀ u ≤ t, Inv u) → Inv (t.commit rows))
    (h : Runs ok t₀ w) : ∀ u ≤ w.timeline, Inv u := by
  refine Runs.step_invariant hfit hcalls h₀ ?_ h
  intro w i env s hw _ _ hC hc ih
  exact hstep s.call s.born _ _ _ hC hc (hw.evolving hfit hev₀) ih

/-- What a session commits in its next step. -/
theorem Runs.commit_of_step (hfit : Fits I ok) (h : Runs ok t₀ w)
    {s : Session Database RowVersion Sql Ext Env JsError Call (Except JsError Reply) Sql.Rows
      Ext.Res} {i : Nat} {env : Env} (hs : w.sessions[i]? = some s)
    (hb : w.batch postgres i env ≠ []) :
    Commit I s.born (s.seen.getD w.timeline) w.timeline s.call (w.batch postgres i env) := by
  obtain ⟨t, hle, hrel, hwp⟩ := Run.sound hfit (fun _ _ _ _ => trivial)
    (spec_at I (fun _ => True) ok) h s (List.mem_of_getElem? hs)
  cases hk : s.prog with
  -- A finished call commits nothing.
  | ret r => simp [World.batch, hs, hk] at hb
  | call c k =>
      rw [hk] at hwp
      have hbatch : w.batch postgres i env = (postgres.step c env w.timeline.now s.tx).publish := by
        simp [World.batch, hs, hk]
      rw [hbatch] at hb ⊢
      exact (hwp w.timeline env (hrel (by rw [hk]; rfl)) trivial).1 hb

/-- A call that has finished has ended as its specification says, at some moment of the
run. -/
theorem Runs.ended {adm : Env → Prop} (hfit : Fits I ok)
    (hadm : ∀ w i env, ok w (.step i env) → adm env) (h : Runs ok t₀ w)
    {s : Session Database RowVersion Sql Ext Env JsError Call (Except JsError Reply) Sql.Rows
      Ext.Res} (hs : s ∈ w.sessions) {r : Except JsError Reply} (hr : s.prog = .ret r) :
    ∃ t, t ≤ w.timeline ∧ Ended I adm s.born s.call (s.seen.getD t) t r := by
  obtain ⟨t, hle, -, hwp⟩ := Run.sound hfit hadm (spec_at I adm ok) h s hs
  rw [hr] at hwp
  exact ⟨t, hle, hwp.2⟩

/-! ### Executing a list of steps -/

/-- The world after a list of steps from the log `t₀`, when each is enabled and passes the
check `p`. -/
def play (p : ServiceWorld → Step → Bool) (t₀ : Log) (as : List Step) : Option ServiceWorld :=
  (World.start t₀).exec postgres (fun c => c.body.run) p as

/-- A schedule whose steps all pass a check is a run whose steps meet what the check
decides. -/
theorem runs_of_play {p : ServiceWorld → Step → Bool} {as : List Step}
    (hok : ∀ w a, p w a = true → ok w a) (h : play p t₀ as = some w) : Runs ok t₀ w :=
  Run.of_exec hok h

/-- A list of steps that can be executed is a run to a world with what `f` computes. -/
theorem exists_run_of_play {β : Type} {p : ServiceWorld → Step → Bool} {as : List Step}
    {f : ServiceWorld → β} {b : β} (hok : ∀ w a, p w a = true → ok w a)
    (h : (play p t₀ as).map f = some b) : ∃ w, Runs ok t₀ w ∧ f w = b := by
  obtain ⟨w, hw, hb⟩ := Option.map_eq_some_iff.mp h
  exact ⟨w, runs_of_play hok hw, hb⟩

/-- The check of `SerialStep`. -/
def serialCheck (w : ServiceWorld) : Step → Bool
  | .spawn _ => w.quiescent
  | .step _ _ => true

/-- A step that passes `serialCheck` is serial. -/
theorem serialStep_of_check (w : ServiceWorld) (a : Step) (h : serialCheck w a = true) :
    SerialStep w a := by
  rintro c rfl
  exact h

end

/-- A check that is enough for `RoutedStep`: one of the given requests makes the call. -/
def routedCheck (rs : List Request) (_ : ServiceWorld) : Step → Bool
  | .spawn c => rs.any fun r => r.call == some c
  | .step _ _ => true

/-- A step that passes `routedCheck` spawns the call of some request. -/
theorem routedStep_of_check {rs : List Request} (w : ServiceWorld) (a : Step)
    (h : routedCheck rs w a = true) : RoutedStep w a := by
  rintro c rfl
  obtain ⟨r, -, hr⟩ := List.any_eq_true.mp h
  exact ⟨r, beq_iff_eq.mp hr⟩

/-- The status of an invoice before and after the last commit. -/
def lastChange (t : Log) (id : Uuid) : Option (Option InvoiceStatus × Option InvoiceStatus) :=
  match t with
  | .start _ => none
  | .commit t rows => some (t.now.statusOf id, (t.commit rows).now.statusOf id)

/-- The last commit has written a version of the invoice. -/
def lastWrites (t : Log) (id : Uuid) : Bool :=
  match t with
  | .start _ => false
  | .commit _ rows => rows.any fun
    | .invoice r => r.id == id
    | _ => false

/-! ### A sample database and the life cycle of one invoice

The runs below are the witnesses' inputs: one supplier, one buyer and one invoice over
1000 paise. Every call makes its steps in the environment `sampleEnv`. -/

/-- The supplier of the sample runs. -/
def sampleSupplier : Uuid := ⟨"a", by decide⟩

/-- The buyer of the sample runs. -/
def sampleBuyer : Uuid := ⟨"b", by decide⟩

/-- The id that the sample runs generate. -/
def sampleId : Uuid := ⟨"1", by decide⟩

/-- Two organisations, and no other row. -/
def sampleDb : Database :=
  { organisations :=
      { rows := [⟨sampleSupplier, "Supplier", none, .supplier⟩,
          ⟨sampleBuyer, "Buyer", none, .buyer⟩]
        nodup := by decide }
    credentials := Table.empty
    invoices := Table.empty
    virtualAccounts := Table.empty
    ledgerEntries := []
    invoiceEvents := [] }

/-- The sample database has no invoices, accounts, entries or events. -/
theorem initial_sampleDb : sampleDb.Initial :=
  ⟨fun _ => rfl, fun _ => rfl, rfl, rfl⟩

/-- The environment of the sample runs, at time 1 and without a fault. -/
def sampleEnv : Env := { now := 1, uuid := sampleId, random := 0, fault := false }

/-- `n` steps of the session `i`. -/
def steps (i n : Nat) : List Step := List.replicate n (.step i sampleEnv)

/-- `n` steps of the session `i` at the time `now`. -/
def stepsAt (now : Timestamp) (i n : Nat) : List Step :=
  List.replicate n (.step i { sampleEnv with now := now })

/-- The submission of the sample invoice. -/
def sampleSubmit : Call :=
  .submitInvoice ⟨"INV-1", sampleSupplier, sampleBuyer, 1000, "INR", 100⟩ sampleSupplier

/-- Its approval by the buyer. -/
def sampleApprove : Call := .approveInvoice ⟨sampleId, sampleBuyer, "0123456789"⟩ sampleBuyer

/-- The supplier's financing request. -/
def sampleRequest : Call := .requestFinancing ⟨sampleId, sampleSupplier⟩ sampleSupplier

/-- An assessment of the sample invoice whose documents and signals all carry one amount. -/
def sampleAssessment (amountCents : Int) : AssessInvoiceRiskCommand :=
  { invoiceId := sampleId
    threeWayMatchInput := ⟨sampleId, amountCents, amountCents, amountCents, "PO-1", "DR-1"⟩
    anomalySignals :=
      { invoiceId := sampleId
        buyerId := sampleBuyer
        supplierId := sampleSupplier
        amountCents := amountCents
        dueDate := 100
        submittedAt := 1
        avgInvoiceAmountCents := amountCents
        daysUntilDue := 30
        priorDefaultCount := 0 } }

/-- An assessment of the sample invoice against a purchase order over half its amount. It
rejects. -/
def sampleRejection : AssessInvoiceRiskCommand :=
  { sampleAssessment 1000 with
      threeWayMatchInput := ⟨sampleId, 1000, 500, 1000, "PO-1", "DR-1"⟩ }

/-- Its account. -/
def sampleCreateVan : Call := .createVan ⟨sampleId.asText, 1000⟩

/-- A payment to the account of the sample invoice. -/
def samplePayment (amountCents : Int) (key : String) : RecordPaymentCommand :=
  ⟨"VSE11000", amountCents, key, "1970-01-01T00:00:00.000Z"⟩

/-- The requests of the sample calls: the operations before the payments, and a payment. -/
def sampleRequests (amountCents : Int) (key : String) : List Request :=
  [.submit sampleSupplier ⟨"INV-1", sampleSupplier, sampleBuyer, 1000, "INR", 100⟩,
    .approve sampleBuyer sampleId "0123456789", .requestFinancing sampleSupplier sampleId,
    .assess (sampleAssessment 1000), .createVan ⟨sampleId.asText, 1000⟩,
    .paymentWebhook (samplePayment amountCents key)]

/-- The sample database after a list of steps. -/
def sampleAfter (as : List Step) : Database :=
  match play (fun _ _ => true) (.start sampleDb) as with
  | some w => w.db
  | none => sampleDb

/-- The session 0 submits the invoice. -/
def stepsToSubmitted : List Step := .spawn sampleSubmit :: steps 0 9

/-- The sessions 0 to 2: submit, approve and request financing. -/
def stepsToRequested : List Step :=
  stepsToSubmitted ++ .spawn sampleApprove :: steps 1 11 ++ .spawn sampleRequest :: steps 2 8

/-- The sessions 0 to 3: the same and the virtual account. -/
def stepsToAccount : List Step := stepsToRequested ++ .spawn sampleCreateVan :: steps 3 12

end Vanguard
