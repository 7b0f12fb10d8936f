import Vanguard.Library.Clock
import Vanguard.Proofs.Accounts

/-!
# `Vanguard.Proofs.Expiry`: money on an account that has expired

`createVan` gives an account an `expires_at`, ninety days ahead. No service compares it with
the clock, and none writes the status `expired`. So the guard of `recordPayment` never finds
an expired account, and the account takes money for ever.

`ExpiryRespected` says what the expiry promises of a run under a clock: a credit is committed
at the latest at the `expires_at` of its account, and a payment that arrives later is rejected
and changes no table. `expiry_respected` proves it for the runs in which no transaction of a
payment goes on after the expiry (`TimelyStep`). `late_payment_accepted` is a run in which one
does.
-/

set_option autoImplicit false

namespace Vanguard

open ReadCommitted Database

/-- The services under a clock. -/
abbrev TimedService :=
  TimedWorld Database RowVersion Sql Ext Env JsError Call (Except JsError Reply) Sql.Rows Ext.Res
    Timestamp

/-- The runs of the services from the database `db`, under a clock that never goes back. -/
abbrev TimedRuns (ok : ServiceWorld → Step → Prop) (db : Database) : TimedService → Prop :=
  TimedRun postgres (fun c => c.body.run) Env.now ok db

/-! ### What the expiry promises -/

/-- An account expires ninety days after a moment of the run. The credits are in time, and a
payment that arrives after the expiry is rejected. The stamp of a commit has the session that
made it and its time. -/
structure ExpiryRespected (x : TimedService) : Prop where
  lifetime : ∀ id v, x.world.db.van id = some v →
    ∃ now, now ≤ x.clock ∧ v.expiresAt = now + vanLifetime
  credits : ∀ t rows m (e : LedgerEntry), x.HasCommit t rows m → .ledgerEntry e ∈ rows →
    e.entryType = .credit →
      ∃ v, x.world.db.van e.virtualAccountId = some v ∧ m.time ≤ v.expiresAt
  late : ∀ (i : Nat) s cmd (arrival : Timestamp) v, x.world.sessions[i]? = some s →
    s.call = .recordPayment cmd → x.arrivals[i]? = some arrival →
    x.world.db.vanByNumber cmd.accountNumber = some v → v.expiresAt < arrival →
      (∀ t rows m, x.HasCommit t rows m → m.session ≠ i) ∧
      ∀ r, s.prog = .ret r → ∃ err, r = .error err

/-- A transaction is open. -/
def InTransaction (tx : Tx Env RowVersion) : Prop := ∃ start ws, tx = .active start ws

/-- The transaction of a payment goes on only until the expiry of its account. -/
def TimelyStep (w : ServiceWorld) (a : Step) : Prop :=
  ∀ i env s cmd (v : VirtualAccount), a = .step i env → w.sessions[i]? = some s →
    s.call = .recordPayment cmd → InTransaction s.tx →
      w.db.vanByNumber cmd.accountNumber = some v → env.now ≤ v.expiresAt

/-! ### Who commits a payment -/

/-- A statement writes at most one row version. -/
theorem exec_rows_length {q : Sql} {start env : Env} {db : Database} {rows : List RowVersion}
    {ans : q.Rows} (h : q.exec start env db = .ok (rows, ans)) : rows.length ≤ 1 := by
  have update : ∀ {α : Type} (version : α → RowVersion) (f : α → α) (o : Option α),
      (updateRow version f o).1.length ≤ 1 := by
    intro α version f o
    cases o <;> simp [updateRow]
  cases q with
  | selectInvoiceById | selectInvoiceByNumber | selectVanByInvoiceId | selectVanByAccountNumber
  | selectLedgerEntries | selectEvents | selectOrganisation | selectCredential =>
      cases h
      exact Nat.zero_le 1
  | insertInvoice input =>
      rw [(insertInvoice_ok h).1]
      exact Nat.le_refl 1
  | insertVan input =>
      rw [(insertVan_ok h).1]
      exact Nat.le_refl 1
  | insertLedgerEntry input =>
      rw [(insertLedgerEntry_ok h).1]
      exact Nat.le_refl 1
  | insertEvent input =>
      rw [(insertEvent_ok h).1]
      exact Nat.le_refl 1
  | updateInvoiceStatus | updateInvoiceSignature | settleAccount =>
      have hrows := congrArg Prod.fst (Except.ok.inj h)
      dsimp only at hrows
      rw [← hrows]
      exact update _ _ _
  | updateReceivedAmount id additional =>
      simp only [Sql.exec] at h
      split at h
      · cases h
        exact Nat.zero_le 1
      · obtain ⟨-, h⟩ := check_bind_ok h
        obtain ⟨-, h⟩ := check_bind_ok h
        cases h
        exact Nat.le_refl 1

/-- Outside a transaction a command commits at most one row version. -/
theorem publish_length {c : Cmd} {env : Env} {db : Database} {tx : Tx Env RowVersion}
    (htx : ¬ InTransaction tx) : (postgres.step c env db tx).publish.length ≤ 1 := by
  have autocommit : ∀ (q : Sql) (tx : Tx Env RowVersion),
      (postgres.autocommit q env db tx).publish.length ≤ 1 := by
    intro q tx
    unfold Engine.autocommit
    split
    · exact Nat.zero_le 1
    · split
      · exact exec_rows_length (postgres_exec_ok ‹_›)
      · exact Nat.zero_le 1
  cases tx with
  | active start ws => exact absurd ⟨start, ws, rfl⟩ htx
  | idle =>
      cases c with
      | begin | commit | rollback =>
          simp only [Engine.step]
          cases postgres.fault env <;> exact Nat.zero_le 1
      | client q => exact autocommit q .idle
      | pool q => exact autocommit q .idle
      | ext e => exact Nat.zero_le 1
  | failed =>
      cases c with
      | begin | commit | rollback =>
          simp only [Engine.step]
          cases postgres.fault env <;> exact Nat.zero_le 1
      | client q => exact Nat.zero_le 1
      | pool q => exact autocommit q .failed
      | ext e => exact Nat.zero_le 1

/-- What a payment commits: its credit on the account it has read, and one row more. -/
theorem Commit.credit_mem {I : Interference Database RowVersion} {born seen t : Log}
    {cmd : RecordPaymentCommand} {rows : List RowVersion}
    (h : Commit I born seen t (.recordPayment cmd) rows) :
    ∃ van start, seen.now.vanByNumber cmd.accountNumber = some van ∧
      .ledgerEntry ((cmd.credit van.id).row start) ∈ rows ∧ 2 ≤ rows.length := by
  cases h with
  | paid van v start _ _ hvan => exact ⟨van, start, hvan, List.mem_cons_self, Nat.le_refl 2⟩
  | settled van v o settledAt start _ _ hvan =>
      refine ⟨van, start, hvan, List.mem_cons_self, ?_⟩
      simp only [List.cons_append, List.length_cons]
      omega

/-- A payment commits from inside its transaction. -/
theorem inTransaction_of_commit {I : Interference Database RowVersion} {born seen : Log}
    {w : ServiceWorld} {i : Nat} {env : Env} {cmd : RecordPaymentCommand}
    {s : Session Database RowVersion Sql Ext Env JsError Call (Except JsError Reply) Sql.Rows
      Ext.Res} (hs : w.sessions[i]? = some s)
    (hc : Commit I born seen w.timeline (.recordPayment cmd) (w.batch postgres i env)) :
    InTransaction s.tx := by
  by_contra htx
  obtain ⟨-, -, -, -, hlength⟩ := hc.credit_mem
  rw [World.batch, hs] at hlength
  dsimp only at hlength
  cases hp : s.prog with
  | ret r => simp [hp] at hlength
  | call c k =>
      rw [hp] at hlength
      exact absurd (hlength.trans (@publish_length c env w.timeline.now s.tx htx)) (by decide)

/-! ### The expiry of an account -/

/-- The accounts stay, with their expiry. -/
def KeepsExpiry (db db' : Database) : Prop :=
  ∀ id v, db.van id = some v → ∃ v', db'.van id = some v' ∧ v'.expiresAt = v.expiresAt

/-- No commit moves the expiry of an account. -/
theorem Commit.keepsExpiry {I : Interference Database RowVersion} {born seen t : Log}
    {c : Call} {rows : List RowVersion} (h : Commit I born seen t c rows) :
    KeepsExpiry t.now (t.commit rows).now := by
  intro id v hv
  cases h.account_change id with
  | kept hsame => exact ⟨v, hsame ▸ hv, rfl⟩
  | opened inv van _ _ _ _ _ _ hnone _ =>
      rw [hv] at hnone
      cases hnone
  | credited van v₁ _ hv₁ _ hafter =>
      obtain rfl : v = v₁ := Option.some.inj (hv.symm.trans hv₁)
      exact ⟨_, hafter, rfl⟩
  | settled van v₁ _ hv₁ _ hafter =>
      obtain rfl : v = v₁ := Option.some.inj (hv.symm.trans hv₁)
      exact ⟨_, hafter, rfl⟩

/-- The accounts of an earlier moment of a run keep their expiry. -/
theorem keepsExpiry_of_run {db : Database} {ok : ServiceWorld → Step → Prop} {w : ServiceWorld}
    (h : Runs ok (.start db) w) {t : Log} (ht : t ≤ w.timeline) :
    KeepsExpiry t.now w.db := by
  refine Timeline.rel_of_le (fun _ id v hv => ⟨v, hv, rfl⟩) (fun a b c hab hbc id v hv => ?_) ht ?_
  · obtain ⟨v', hv', he'⟩ := hab id v hv
    obtain ⟨v'', hv'', he''⟩ := hbc id v' hv'
    exact ⟨v'', hv'', he''.trans he'⟩
  · refine Runs.commit_induction (C := fun _ _ => True) (Or.inl Interference.concurrent_shared)
      (fun _ _ _ => trivial) (Timeline.commits_start _ _) ?_ h
    intro w i env s _ _ _ _ hc ih
    exact Timeline.commits_commit ih hc.keepsExpiry

section
variable {adm : Env → Prop}

/-- The expiry that `createVan` computes: ninety days after its `new Date()`. -/
def Dated (adm : Env → Prop) (v : VirtualAccount) : Prop :=
  ∃ env, adm env ∧ v.expiresAt = env.now + vanLifetime

/-- What `createVan` commits has an expiry of its own clock. -/
def DatesAccounts (adm : Env → Prop) (c : Call) (_ _ _ : Log) (rows : List RowVersion) : Prop :=
  ∀ cmd v, c = .createVan cmd → .virtualAccount v ∈ rows → Dated adm v

/-- `createVan` dates its account by its own clock. -/
theorem createVan_dates (cmd : CreateVanCommand) (born : Log) :
    Await.wp (postgres.rely Interference.concurrent adm (DatesAccounts adm (.createVan cmd) born))
      (VanService.createVan cmd) ⟨born, none, .idle⟩ fun _ _ => True := by
  rw [VanService.createVan, Await.wp_bind]
  refine wp_findInvoice (fun s _ => ?_) fun _ _ _ => trivial
  cases s.now.invoice cmd.invoiceId with
  | none => exact trivial
  | some inv =>
      dsimp only
      split
      · exact trivial
      simp only [VanRepository.findByInvoiceId, Await.wp_bind, Await.wp_pure]
      refine wp_select (f := fun db => (db.virtualAccounts.rows.find? fun v =>
        v.invoiceId == cmd.invoiceId).toList) (fun _ _ => rfl) (fun _ _ => ?_) fun _ _ _ => trivial
      dsimp only
      split
      · exact trivial
      simp only [VanService.generateAccountNumber, Await.wp_bind, Await.wp_pure]
      refine wp_newDate fun _ _ _ => wp_randomDigits fun _ _ _ => ?_
      -- The `new Date()` of the expiry.
      refine rely_ext fun _ clock _ hadm => ?_
      have fails : ∀ t e tx, Closes (α := VirtualAccount) adm s id (fun _ _ => True) (.error e)
          ⟨t, some s, tx⟩ :=
        fun _ _ _ => ⟨rfl, trivial, fun _ => trivial⟩
      refine wp_withClient (f := id) (fun _ => rfl) (fun _ _ _ _ _ => trivial) (fun _ => trivial)
        fun _ _ => ?_
      simp only [Await.wp_bind]
      refine wp_begin (fun _ start _ => ?_) fun _ _ _ => fails _ _ _
      refine wp_createVan (fun _ env _ _ _ _ => ?_) fun _ _ _ => fails _ _ _
      refine wp_appendLedgerEntry (fun _ _ _ _ => ?_) (fun _ _ _ _ _ => fails _ _ _)
        (fun _ _ _ _ _ => fails _ _ _) fun _ _ _ => fails _ _ _
      refine wp_appendEvent (fun _ _ _ => ?_) (fun _ _ _ _ _ => fails _ _ _)
        fun _ _ _ => fails _ _ _
      refine wp_commit (fun _ _ _ v _ hv => ?_) (fun _ _ => ⟨rfl, rfl, trivial⟩)
        fun _ _ _ => fails _ _ _
      -- The only account of the batch is the inserted row.
      refine ⟨clock, hadm, ?_⟩
      simp only [List.nil_append, List.cons_append, List.mem_cons, RowVersion.virtualAccount.injEq,
        reduceCtorEq, List.not_mem_nil, or_false] at hv
      rw [hv]
      rfl

/-- Every call dates the accounts it commits. -/
theorem Call.dates (c : Call) (born : Log) :
    c.body.run.wp (postgres.rely Interference.concurrent adm (DatesAccounts adm c born))
      ⟨born, none, .idle⟩ fun _ _ => True := by
  cases c with
  | createVan cmd =>
      show Await.wp _ (do let r ← VanService.createVan cmd; pure (Reply.van r)) _ _
      rw [Await.wp_bind]
      refine Await.wp_mono Engine.rely_mono (createVan_dates cmd born) fun r v _ => ?_
      cases r <;> exact trivial
  | submitInvoice | approveInvoice | requestFinancing | assessAndRecord | recordPayment =>
      exact Engine.rely_trivial fun _ _ _ _ _ hcall => nomatch hcall

/-- An account of the database after some writes was there before, or it is one of them. -/
theorem van_writeAll_cases {db : Database} {rows : List RowVersion} {id : Uuid}
    {v : VirtualAccount} (hv : (writeAll db rows).van id = some v) :
    db.van id = some v ∨ .virtualAccount v ∈ rows := by
  induction rows generalizing db with
  | nil => exact Or.inl hv
  | cons r rows ih =>
      rcases ih hv with hv | hm
      · cases r with
        | virtualAccount v' =>
            rw [store_write, van_write_virtualAccount] at hv
            split at hv
            · cases hv
              exact Or.inr List.mem_cons_self
            · exact Or.inl hv
        | invoice | ledgerEntry | invoiceEvent => exact Or.inl hv
      · exact Or.inr (List.mem_cons_of_mem _ hm)

/-- Every account of a run has its expiry from a clock of the run. -/
theorem dated_of_run {db : Database} (hdb : ∀ id, db.van id = none)
    {ok : ServiceWorld → Step → Prop} {w : ServiceWorld}
    (hadm : ∀ w i env, ok w (.step i env) → adm env) (h : Runs ok (.start db) w) {id : Uuid}
    {v : VirtualAccount} (hv : w.db.van id = some v) : Dated adm v := by
  have hrun : ∀ id v, w.timeline.now.van id = some v → Dated adm v := by
    refine Run.timeline_induction (J := fun t => ∀ id v, t.now.van id = some v → Dated adm v)
      (Or.inl Interference.concurrent_shared) hadm (fun w c _ t => Call.dates c t) ?_ ?_ h
    · intro id v hv
      rw [Timeline.now_start, hdb id] at hv
      cases hv
    · intro w i env s hw _ hs hb hdates ih id v hv
      have hc := Runs.commit_of_step (Or.inl Interference.concurrent_shared) hw hs hb
      revert hc hdates
      generalize s.call = c
      intro hdates hc
      cases hc.account_change id with
      | kept hsame => exact ih id v (hsame ▸ hv)
      | opened inv van _ _ _ _ _ _ hnone _ =>
          rcases van_writeAll_cases hv with hv | hm
          · rw [hnone] at hv
            cases hv
          · exact hdates _ v rfl hm
      | credited van v₁ _ hv₁ _ hafter =>
          rw [hafter] at hv
          cases hv
          exact ih id v₁ hv₁
      | settled van v₁ _ hv₁ _ hafter =>
          rw [hafter] at hv
          cases hv
          exact ih id v₁ hv₁
  exact hrun id v hv

end

/-! ### Runs in which payments are in time -/

section
variable {db : Database} {x : TimedService}

/-- A commit of a timed run is one of the call of its session, at the time of the step. -/
theorem commit_of_hasCommit {ok : ServiceWorld → Step → Prop} (h : TimedRuns ok db x) {t : Log}
    {rows : List RowVersion} {m : Stamp Timestamp} (hm : x.HasCommit t rows m) :
    ∃ w env s s' seen, TimedRun.Origin postgres (fun c => c.body.run) Env.now ok db x t rows w
        m.session env s s' ∧ m.time = env.now ∧
      Commit Interference.concurrent s.born seen t s.call rows := by
  obtain ⟨w, i, env, s, s', ho⟩ := h.commit_origin hm.1
  obtain rfl : m = ⟨i, env.now⟩ := Option.some.inj (hm.2.symm.trans ho.stamp)
  obtain rfl := ho.batch
  obtain rfl := ho.moment
  exact ⟨w, env, s, s', _, ho, rfl, Runs.commit_of_step (Or.inl Interference.concurrent_shared)
    ho.run ho.session ho.nonempty⟩

/-- The credits of the run are in time. -/
theorem credit_in_time (hdb : db.Initial) (h : TimedRuns TimelyStep db x) {t : Log}
    {rows : List RowVersion} {m : Stamp Timestamp} (hm : x.HasCommit t rows m)
    {e : LedgerEntry} (he : .ledgerEntry e ∈ rows) (hcredit : e.entryType = .credit) :
    ∃ v, x.world.db.van e.virtualAccountId = some v ∧ m.time ≤ v.expiresAt := by
  obtain ⟨w, env, s, s', seen, ho, htime, hc⟩ := commit_of_hasCommit h hm
  rcases hc.entry_cases he with ⟨cmd, inv, van, start, -, rfl, -⟩ |
    ⟨cmd, van, v, start, hcall, rfl, hp⟩
  · -- The entry of an advance is a debit.
    cases hcredit
  · rw [hcall] at hc
    obtain rfl := ho.moment
    obtain rfl := ho.batch
    -- The account has kept its number since the call has read it.
    obtain ⟨hvan, hnumber⟩ := vanByNumber_some hp.hvan
    have hev := (Runs.evolving (Or.inl Interference.concurrent_shared)
      (Timeline.commits_start _ _) ho.run).evolves (Interference.le _ hp.hseen)
    obtain ⟨v', hv', hvev⟩ := hev.van van.id van hvan
    obtain rfl : v = v' := Option.some.inj (hp.hrow.symm.trans hv')
    have hfound : w.db.vanByNumber cmd.accountNumber = some v := by
      rw [← hnumber, ← hvev.accountNumber]
      exact (linked_of_run hdb.van ho.run _ (le_refl _)).vanByNumber hv'
    have hintime := ho.allowed m.session env s cmd v rfl ho.session hcall
      (inTransaction_of_commit ho.session hc) hfound
    -- And it keeps its expiry to the end of the run.
    have hle : w.timeline ≤ x.world.timeline :=
      le_trans (Timeline.le_commit _ (le_refl _)) hm.1
    obtain ⟨v'', hv'', hexpires⟩ := keepsExpiry_of_run h.run hle van.id v hv'
    exact ⟨v'', hv'', htime ▸ hexpires ▸ hintime⟩

/-- A payment that arrives after the expiry of its account commits nothing. -/
theorem not_late_commit (hdb : db.Initial) (h : TimedRuns TimelyStep db x) {i : Nat}
    {s : Session Database RowVersion Sql Ext Env JsError Call (Except JsError Reply) Sql.Rows
      Ext.Res} (hs : x.world.sessions[i]? = some s) {cmd : RecordPaymentCommand}
    {arrival : Timestamp} (harrival : x.arrivals[i]? = some arrival) {v : VirtualAccount}
    (hv : x.world.db.vanByNumber cmd.accountNumber = some v) (hlate : v.expiresAt < arrival)
    {seen t : Log} {rows : List RowVersion} (ht : t.commit rows ≤ x.world.timeline) :
    ¬ Commit Interference.concurrent s.born seen t (.recordPayment cmd) rows := by
  intro hc
  obtain ⟨w, j, env, s₁, s₂, ho⟩ := h.commit_origin ht
  obtain ⟨van, start, hvan, he, -⟩ := hc.credit_mem
  obtain ⟨hborn, hseen⟩ := hc.rel fun _ _ => Call.noConfusion
  obtain ⟨v', hv', hintime⟩ := credit_in_time hdb h ⟨ht, ho.stamp⟩ he rfl
  -- The account of the credit is the one with the number of the payment.
  have hle : seen ≤ x.world.timeline :=
    le_trans (Interference.le _ hseen) (le_trans (Timeline.le_commit _ (le_refl _)) ht)
  obtain ⟨hvan, hnumber⟩ := vanByNumber_some hvan
  have hev := (Runs.evolving (Or.inl Interference.concurrent_shared)
    (Timeline.commits_start _ _) h.run).evolves hle
  obtain ⟨v'', hv'', hvev⟩ := hev.van van.id van hvan
  obtain rfl : v' = v'' := Option.some.inj (hv'.symm.trans hv'')
  have hfound := (linked_of_run hdb.van h.run _ (le_refl _)).vanByNumber hv''
  rw [hvev.accountNumber, hnumber] at hfound
  obtain rfl : v = v' := Option.some.inj (hv.symm.trans hfound)
  -- The commit follows the arrival.
  have hlength := Timeline.length_le_of_le (le_trans (Interference.le _ hborn)
    (Interference.le _ hseen))
  have hafter : arrival ≤ env.now := h.arrival_le hs harrival hlength ho.stamp
  exact absurd (lt_of_lt_of_le hlate hafter) (not_lt.mpr hintime)

/-- In a run in which no transaction of a payment goes on after the expiry of its account, the
expiry is respected. -/
theorem expiry_respected (hdb : db.Initial) (h : TimedRuns TimelyStep db x) :
    ExpiryRespected x where
  lifetime id v hv := by
    have hdated : Dated (fun env => env.now ≤ x.clock) v :=
      dated_of_run hdb.van (fun _ i env ha => ha i env rfl) (h.run_until (le_refl _)) hv
    obtain ⟨env, hnow, hexpires⟩ := hdated
    exact ⟨env.now, hnow, hexpires⟩
  credits t rows m e hm he hcredit := credit_in_time hdb h hm he hcredit
  late i s cmd arrival v hs hcall harrival hv hlate := by
    refine ⟨fun t rows m hm hi => ?_, fun r hr => ?_⟩
    · -- A commit of the session would be one of the payment.
      obtain ⟨w, env, s₁, s₂, seen, ho, -, hc⟩ := commit_of_hasCommit h hm
      have hlater := ho.later
      rw [hi, hs] at hlater
      obtain rfl := Option.some.inj hlater
      rw [← ho.call, ← ho.born, hcall] at hc
      exact not_late_commit hdb h hs harrival hv hlate hm.1 hc
    · cases r with
      | error err => exact ⟨err, rfl⟩
      | ok reply =>
          obtain ⟨time, htime, hended⟩ := Runs.ended (Or.inl Interference.concurrent_shared)
            (fun _ _ _ _ => trivial) h.run (List.mem_of_getElem? hs) hr
          cases hended with
          | committed t rows _ hc hrel _ =>
              rw [hcall] at hc
              have ht := le_trans (Interference.le _ hrel) htime
              rw [hc.publish_eq] at ht
              exact absurd hc (not_late_commit hdb h hs harrival hv hlate ht)

end

/-! ### A payment before and after the expiry -/

/-- The steps of a list, each command at the time of its environment and each call at `now`. -/
def timed (now : Timestamp) (as : List Step) : List (TimedAction Call Env Timestamp) :=
  as.map fun
    | .spawn c => .spawn c now
    | .step i env => .step i env

/-- The life cycle of the sample invoice up to its account at the time 1, and a payment of its
amount at the time `now`. -/
def stepsWithPaymentAt (now : Timestamp) : List (TimedAction Call Env Timestamp) :=
  timed 1 stepsToAccount ++
    timed now (.spawn (.recordPayment (samplePayment 1000 "k1")) :: stepsAt now 4 17)

/-- The sample database under a clock, after a list of timed steps. -/
def playTimed (p : ServiceWorld → Step → Bool) (as : List (TimedAction Call Env Timestamp)) :
    Option TimedService :=
  TimedWorld.exec postgres (fun c => c.body.run) Env.now p
    ⟨World.start (.start sampleDb), 0, [], []⟩ as

/-- The check of `TimelyStep`. -/
def timelyCheck (w : ServiceWorld) : Step → Bool
  | .spawn _ => true
  | .step i env =>
    match w.sessions[i]? with
    | none => true
    | some s =>
      match s.call, s.tx with
      | .recordPayment cmd, .active _ _ =>
        (w.db.vanByNumber cmd.accountNumber).all fun v => env.now ≤ v.expiresAt
      | _, _ => true

/-- A step that passes `timelyCheck` meets `TimelyStep`. -/
theorem timelyStep_of_check (w : ServiceWorld) (a : Step) (h : timelyCheck w a = true) :
    TimelyStep w a := by
  rintro i env s cmd v rfl hs hcall ⟨start, ws, htx⟩ hv
  simp only [timelyCheck, hs, hcall, htx, hv, Option.all_some, decide_eq_true_eq] at h
  exact h

/-- The account is paid on the day after it was opened. -/
theorem expiry_respected_next_day : ∃ x : TimedService, TimedRuns TimelyStep sampleDb x ∧
    x.world.db.ledgerEntries.map LedgerEntry.entryType = [.debit, .credit] ∧
    ExpiryRespected x := by
  have h : (playTimed timelyCheck (stepsWithPaymentAt 86400000)).map
      (fun x => x.world.db.ledgerEntries.map LedgerEntry.entryType) =
        some [.debit, .credit] := by decide +kernel
  obtain ⟨x, hx, hentries⟩ := Option.map_eq_some_iff.mp h
  have hrun : TimedRuns TimelyStep sampleDb x :=
    (TimedRun.start 0).of_exec timelyStep_of_check hx
  exact ⟨x, hrun, hentries, expiry_respected initial_sampleDb hrun⟩

/-- The call of the session `i`, and whether it has resolved. -/
def TimedService.resolved (x : TimedService) (i : Nat) : Option (Call × Bool) :=
  (x.world.sessions[i]?).map fun s =>
    (s.call, match s.prog with
      | .ret (.ok _) => true
      | _ => false)

/-- The payment arrives on the day after the expiry of its account, and is recorded. -/
theorem late_payment_accepted : ∃ x : TimedService, TimedRuns RoutedStep sampleDb x ∧
    (x.world.db.vanByNumber "VSE11000").map VirtualAccount.expiresAt = some (1 + vanLifetime) ∧
    x.arrivals[4]? = some (1 + vanLifetime + 86400000) ∧
    x.world.db.ledgerEntries.map LedgerEntry.entryType = [.debit, .credit] ∧
    ¬ ExpiryRespected x := by
  have h : (playTimed (routedCheck (sampleRequests 1000 "k1"))
      (stepsWithPaymentAt (1 + vanLifetime + 86400000))).map
      (fun x => (x.resolved 4, x.arrivals[4]?,
        (x.world.db.vanByNumber "VSE11000").map VirtualAccount.expiresAt,
        x.world.db.ledgerEntries.map LedgerEntry.entryType)) =
      some (some (.recordPayment (samplePayment 1000 "k1"), true),
        some (1 + vanLifetime + 86400000), some (1 + vanLifetime), [.debit, .credit]) := by
    decide +kernel
  obtain ⟨x, hx, hdata⟩ := Option.map_eq_some_iff.mp h
  simp only [Prod.mk.injEq] at hdata
  obtain ⟨hresolved, harrival, hexpires, hentries⟩ := hdata
  refine ⟨x, (TimedRun.start 0).of_exec routedStep_of_check hx, hexpires, harrival, hentries,
    fun hrespected => ?_⟩
  obtain ⟨s, hs, hcall⟩ := Option.map_eq_some_iff.mp hresolved
  obtain ⟨v, hv, hv'⟩ := Option.map_eq_some_iff.mp hexpires
  obtain ⟨hcall, hok⟩ := Prod.mk.inj hcall
  obtain ⟨-, hrejected⟩ := hrespected.late 4 s _ _ v hs hcall harrival hv (by rw [hv']; decide)
  split at hok
  · rename_i reply hr
    obtain ⟨err, herr⟩ := hrejected _ hr
    cases herr
  · cases hok

end Vanguard
