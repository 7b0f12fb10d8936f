import Vanguard.Library.Provenance
import Mathlib.Data.Finset.Max

/-!
# `Vanguard.Library.Discipline`: what a session sends and answers after what it has done

A `Trace` is what a session has done so far: the committed databases at which it ran its
commands, the batches it has committed, and its transaction. `Engine.tracing` is the
transformer of one command on traces. The committed database is any, and the command has to be
allowed after the trace. `Takes` is the triple of a program, and `Idles` the one of a program
that starts and ends without a transaction.

* `Discipline` says which commands are allowed, what a call may answer (`answers`), and what a
  transaction then knows about the row versions it holds (`held`). `Run.orderly` is its
  invariant: the row versions of any two sessions are compatible, every session holds as `held`
  says, and its trace is a trace of the run. `World.Orderly.sends` and `World.Orderly.answered`
  are what it says about the next command of a session and about a finished call.
* `LockOrder` is a discipline with a rank. A session that waits for another one holds row
  versions of a lower rank. `World.Orderly.progress` is the result: in a world with a call in
  progress, some call is not waiting. So no set of sessions waits in a circle.
-/

set_option autoImplicit false

namespace ReadCommitted

/-- The conflict test does not depend on the order. -/
class LawfulStore (D Row : Type) [Store D Row] : Prop where
  clash_comm : ∀ r r' : Row, Store.clash (D := D) r r' = Store.clash (D := D) r' r

section
variable {D Row : Type} [Store D Row]

/-- Being compatible does not depend on the order. -/
theorem compatible_comm [LawfulStore D Row] {rows rows' : List Row}
    (h : compatible (D := D) rows rows' = true) : compatible (D := D) rows' rows = true := by
  rw [compatible_iff] at h ⊢
  intro r hr r' hr'
  rw [LawfulStore.clash_comm]
  exact h r' hr' r hr

/-- Nothing written is compatible with everything. -/
theorem compatible_nil (rows : List Row) : compatible (D := D) rows [] = true := by
  rw [compatible_iff]
  exact fun _ _ _ h => absurd h List.not_mem_nil

/-- Everything is compatible with nothing written. -/
theorem nil_compatible (rows : List Row) : compatible (D := D) [] rows = true := rfl

/-- Lists that are not compatible have a clash. -/
theorem exists_clash {rows rows' : List Row} (h : compatible (D := D) rows rows' = false) :
    ∃ r ∈ rows, ∃ r' ∈ rows', Store.clash (D := D) r r' = true := by
  by_contra hne
  have hc : compatible (D := D) rows rows' = true := by
    rw [compatible_iff]
    intro r hr r' hr'
    rw [← Bool.not_eq_true]
    exact fun hclash => hne ⟨r, hr, r', hr', hclash⟩
  rw [hc] at h
  cases h

end

variable {D Row Stmt Ext Env Err : Type} {S : Stmt → Type} {X : Ext → Type} [Store D Row]

/-! ### Programs -/

/-- What a session has done: the committed databases at which it ran its commands, the batches
that it has committed, and its transaction. -/
structure Trace (D Row Env : Type) where
  seen : List D
  done : List (List Row)
  tx : Tx Env Row

/-- The batches with one more, unless it is empty. -/
def addBatch (done : List (List Row)) : List Row → List (List Row)
  | [] => done
  | r :: rows => done ++ [r :: rows]

section
variable {Row : Type} {done : List (List Row)} {rows : List Row}

/-- Adding a batch keeps the batches there are. -/
theorem subset_addBatch : done ⊆ addBatch done rows := by
  cases rows with
  | nil => exact List.Subset.refl _
  | cons r rows => exact List.subset_append_left _ _

/-- A batch that is not empty is added. -/
theorem mem_addBatch (h : rows ≠ []) : rows ∈ addBatch done rows := by
  cases rows with
  | nil => exact absurd rfl h
  | cons r rows => exact List.mem_append_right _ (List.mem_singleton_self _)

/-- Only the batch itself is added, and only if it is not empty. -/
theorem addBatch_cases {rows' : List Row} (h : rows' ∈ addBatch done rows) :
    rows' ∈ done ∨ (rows' = rows ∧ rows ≠ []) := by
  cases rows with
  | nil => exact Or.inl h
  | cons r rows =>
      rcases List.mem_append.mp h with h | h
      · exact Or.inl h
      · exact Or.inr ⟨List.mem_singleton.mp h, List.cons_ne_nil _ _⟩

end

namespace Trace

/-- The trace after a command at the committed database `db`. -/
def next {A : Type} (tr : Trace D Row Env) (db : D) (o : Outcome Env Row Err A) :
    Trace D Row Env :=
  ⟨tr.seen ++ [db], addBatch tr.done o.publish, o.tx⟩

/-- What has been done stays done. The transactions may differ. -/
structure Le (tr tr' : Trace D Row Env) : Prop where
  seen : tr.seen ⊆ tr'.seen
  done : tr.done ⊆ tr'.done

omit [Store D Row] in
/-- A command only adds to what was seen and done. -/
theorem le_next {A : Type} (tr : Trace D Row Env) (db : D) (o : Outcome Env Row Err A) :
    tr.Le (tr.next db o) :=
  ⟨List.subset_append_left _ _, subset_addBatch⟩

end Trace

namespace Trace

/-- A committed database at which the session has run a command is as `p` says. -/
def Saw (tr : Trace D Row Env) (p : D → Prop) : Prop := ∃ db ∈ tr.seen, p db

/-- Two of these databases, the first one seen before the second one, are as `p` says. -/
def SawThen (tr : Trace D Row Env) (p : D → D → Prop) : Prop :=
  ∃ db db', [db, db'].Sublist tr.seen ∧ p db db'

/-- A batch that the session has committed is as `p` says. -/
def Did (tr : Trace D Row Env) (p : List Row → Prop) : Prop := ∃ rows ∈ tr.done, p rows

section
variable {tr tr' : Trace D Row Env}

omit [Store D Row] in
/-- What was seen stays seen. -/
theorem Le.saw (h : tr.Le tr') (p : D → Prop) (hp : tr.Saw p) : tr'.Saw p := by
  obtain ⟨db, hdb, hp⟩ := hp
  exact ⟨db, h.seen hdb, hp⟩

omit [Store D Row] in
/-- What was done stays done. -/
theorem Le.did (h : tr.Le tr') (p : List Row → Prop) (hp : tr.Did p) : tr'.Did p := by
  obtain ⟨rows, hrows, hp⟩ := hp
  exact ⟨rows, h.done hrows, hp⟩

variable {seen : List D} {done : List (List Row)} {rows : List Row} {tx : Tx Env Row}
  {p : List Row → Prop}

omit [Store D Row] in
/-- The batch just added has been done. -/
theorem did_last (hne : rows ≠ []) (hp : p rows) :
    (⟨seen, addBatch done rows, tx⟩ : Trace D Row Env).Did p :=
  ⟨rows, mem_addBatch hne, hp⟩

omit [Store D Row] in
/-- The batch added before the last one has been done. -/
theorem did_before {rows' : List Row} (hne : rows ≠ []) (hp : p rows) :
    (⟨seen, addBatch (addBatch done rows) rows', tx⟩ : Trace D Row Env).Did p :=
  ⟨rows, subset_addBatch (mem_addBatch hne), hp⟩

end

end Trace

/-- A property of traces that later traces keep. -/
def Persists {A : Type} (Q : A → Trace D Row Env → Prop) : Prop :=
  ∀ a tr tr', tr.Le tr' → Q a tr → Q a tr'

/-- The predicate transformer of one command over every committed database. The command is
allowed after the trace. -/
def Engine.tracing (E : Engine D Row Stmt Ext Env Err S X)
    (allowed : Command Stmt Ext → Trace D Row Env → Prop) (c : Command Stmt Ext)
    (tr : Trace D Row Env) (K : Trace D Row Env → Except Err (c.Res S X) → Prop) : Prop :=
  allowed c tr ∧
    ∀ env db, K (tr.next db (E.step c env db tr.tx)) (E.step c env db tr.tx).answer

/-- The program sends only what is allowed after `tr`. At its end it holds no row version, and
its answer is as `answers` says. -/
def Obeys {α : Type} (E : Engine D Row Stmt Ext Env Err S X)
    (allowed : Command Stmt Ext → Trace D Row Env → Prop) (answers : α → Trace D Row Env → Prop)
    (p : Prog (Command Stmt Ext) (fun c => Except Err (c.Res S X)) α) (tr : Trace D Row Env) :
    Prop :=
  p.wp (E.tracing allowed) tr fun a tr' => tr'.tx.writes = [] ∧ answers a tr'

/-- `Q` of a value, `P` of an error. -/
def Resolves {β : Type} (Q : β → Trace D Row Env → Prop) (P : Err → Trace D Row Env → Prop) :
    Except Err β → Trace D Row Env → Prop
  | .ok b, tr => Q b tr
  | .error e, tr => P e tr

/-- The triple of a program: `Q` of its value and of the trace after it, `P` of what it
throws. -/
def Takes {β : Type} (E : Engine D Row Stmt Ext Env Err S X)
    (allowed : Command Stmt Ext → Trace D Row Env → Prop)
    (p : Await (Command Stmt Ext) (Command.Res S X) Err β) (tr : Trace D Row Env)
    (Q : β → Trace D Row Env → Prop) (P : Err → Trace D Row Env → Prop) : Prop :=
  Await.wp (E.tracing allowed) p tr (Resolves Q P)

/-- The triple of a program that starts without a transaction. It ends without one, also when
it throws. -/
def Idles {β : Type} (E : Engine D Row Stmt Ext Env Err S X)
    (allowed : Command Stmt Ext → Trace D Row Env → Prop)
    (p : Await (Command Stmt Ext) (Command.Res S X) Err β) (seen : List D)
    (done : List (List Row)) (Q : β → Trace D Row Env → Prop)
    (P : Err → Trace D Row Env → Prop) : Prop :=
  Takes E allowed p ⟨seen, done, .idle⟩ (fun b tr => tr.tx = .idle ∧ Q b tr)
    fun e tr => tr.tx = .idle ∧ P e tr

/-- `P` allows for the errors of a fault. -/
class Bears (E : Engine D Row Stmt Ext Env Err S X) (P : Err → Trace D Row Env → Prop) :
    Prop where
  fault : ∀ {env e}, E.fault env = some e → ∀ tr, P e tr

section
variable {E : Engine D Row Stmt Ext Env Err S X}
  {allowed : Command Stmt Ext → Trace D Row Env → Prop} {β γ : Type} {seen : List D}
  {done : List (List Row)} {tx : Tx Env Row} {P : Err → Trace D Row Env → Prop}

/-- The rule on one command is monotone in what follows. -/
theorem tracing_mono (c : Command Stmt Ext) (tr : Trace D Row Env)
    (K K' : Trace D Row Env → Except Err (c.Res S X) → Prop)
    (hK : ∀ tr' r, K tr' r → K' tr' r) (h : E.tracing allowed c tr K) :
    E.tracing allowed c tr K' :=
  ⟨h.1, fun env db => hK _ _ (h.2 env db)⟩

/-- A command that fails commits nothing. -/
theorem Engine.publish_of_error {c : Command Stmt Ext} {env : Env} {db : D} {e : Err}
    (h : (E.step c env db tx).answer = .error e) : (E.step c env db tx).publish = [] := by
  have auto : ∀ {q : Stmt} {tx' : Tx Env Row}, (E.autocommit q env db tx').answer = .error e →
      (E.autocommit q env db tx').publish = [] := by
    intro q tx' ha
    rw [Engine.autocommit] at ha ⊢
    split
    · rfl
    · rename_i hf
      rw [hf] at ha
      simp only at ha ⊢
      split
      · rename_i hx
        rw [hx] at ha
        cases ha
      · rfl
  cases c with
  | begin =>
      simp only [Engine.step]
      split
      · rfl
      · split <;> rfl
  | commit =>
      simp only [Engine.step] at h ⊢
      split
      · rfl
      · -- A `COMMIT` that succeeds answers no error.
        rename_i hf
        rw [hf] at h
        cases h
      · rfl
      · rfl
  | rollback =>
      simp only [Engine.step]
      split <;> rfl
  | client q =>
      cases tx with
      | idle => exact auto h
      | failed => rfl
      | active start ws =>
          simp only [Engine.step]
          split
          · rfl
          · split <;> rfl
  | pool q => exact auto h
  | ext e => rfl

namespace Takes

variable {tr : Trace D Row Env}

/-- A return needs nothing of the trace but the postcondition. -/
theorem pure {b : β} {Q : β → Trace D Row Env → Prop} (h : Q b tr) :
    Takes E allowed (Pure.pure b) tr Q P := h

/-- A throw needs the exceptional postcondition. -/
theorem throw {e : Err} {Q : β → Trace D Row Env → Prop} (h : P e tr) :
    Takes E allowed (MonadExcept.throw e : Await (Command Stmt Ext) (Command.Res S X) Err β) tr
      Q P := h

/-- A sequence goes on from the trace its first part leaves. -/
theorem bind {p : Await (Command Stmt Ext) (Command.Res S X) Err β}
    {f : β → Await (Command Stmt Ext) (Command.Res S X) Err γ} {Q : γ → Trace D Row Env → Prop}
    (h : Takes E allowed p tr (fun b tr' => Takes E allowed (f b) tr' Q P) P) :
    Takes E allowed (p >>= f) tr Q P := by
  unfold Takes
  rw [Await.wp_bind]
  refine Await.wp_mono tracing_mono h fun r tr' hr => ?_
  cases r with
  | ok b => exact hr
  | error e => exact hr

/-- Both postconditions may be weakened. -/
theorem weaken {p : Await (Command Stmt Ext) (Command.Res S X) Err β}
    {Q Q' : β → Trace D Row Env → Prop} {P P' : Err → Trace D Row Env → Prop}
    (h : Takes E allowed p tr Q P) (hQ : ∀ b tr', Q b tr' → Q' b tr')
    (hP : ∀ e tr', P e tr' → P' e tr') : Takes E allowed p tr Q' P' := by
  refine Await.wp_mono tracing_mono h fun r tr' hr => ?_
  cases r with
  | ok b => exact hQ b tr' hr
  | error e => exact hP e tr' hr

/-- A command, by what it answers. -/
theorem await {c : Command Stmt Ext} {Q : c.Res S X → Trace D Row Env → Prop}
    (hallowed : allowed c tr)
    (herr : ∀ env db e tx', (E.step c env db tr.tx).answer = .error e →
      P e ⟨tr.seen ++ [db], tr.done, tx'⟩)
    (h : ∀ env db b, (E.step c env db tr.tx).answer = .ok b →
      Q b (tr.next db (E.step c env db tr.tx))) :
    Takes E allowed (Await.await c) tr Q P := by
  refine ⟨hallowed, fun env db => ?_⟩
  show Resolves Q P (E.step c env db tr.tx).answer (tr.next db (E.step c env db tr.tx))
  cases ha : (E.step c env db tr.tx).answer with
  | ok b => exact h env db b ha
  | error e =>
      show P e _
      rw [Trace.next, Engine.publish_of_error ha]
      exact herr env db e (E.step c env db tr.tx).tx ha

/-- `BEGIN` opens a transaction that has written nothing. -/
theorem begin [Bears E P] {Q : Unit → Trace D Row Env → Prop}
    (hallowed : allowed .begin ⟨seen, done, .idle⟩)
    (h : ∀ env db, Q () ⟨seen ++ [db], done, .active env []⟩) :
    Takes E allowed (Await.await (.begin : Command Stmt Ext)) ⟨seen, done, .idle⟩ Q P := by
  refine await hallowed (fun env db e _ he => ?_) fun env db b hb => ?_
  · simp only [Engine.step] at he
    cases hf : E.fault env with
    | some e' =>
        rw [hf] at he
        cases he
        exact Bears.fault hf _
    | none =>
        rw [hf] at he
        cases he
  · simp only [Engine.step, Trace.next] at hb ⊢
    cases hf : E.fault env with
    | some e =>
        rw [hf] at hb
        cases hb
    | none => exact h env db

/-- A statement in the transaction. -/
theorem client [Bears E P] {q : Stmt} {start : Env} {ws : List Row}
    {Q : S q → Trace D Row Env → Prop}
    (hallowed : allowed (.client q) ⟨seen, done, .active start ws⟩)
    (herr : ∀ env db e tx', E.exec q start env (writeAll db ws) = .error e →
      P e ⟨seen ++ [db], done, tx'⟩)
    (h : ∀ env db rows b, E.exec q start env (writeAll db ws) = .ok (rows, b) →
      Q b ⟨seen ++ [db], done, .active start (ws ++ rows)⟩) :
    Takes E allowed (Await.await (.client q : Command Stmt Ext))
      ⟨seen, done, .active start ws⟩ Q P := by
  refine await hallowed (fun env db e tx' he => ?_) fun env db b hb => ?_
  · simp only [Engine.step] at he
    cases hf : E.fault env with
    | some e' =>
        rw [hf] at he
        cases he
        exact Bears.fault hf _
    | none =>
        rw [hf] at he
        simp only at he
        cases hx : E.exec q start env (writeAll db ws) with
        | ok r =>
            rw [hx] at he
            cases he
        | error e' =>
            rw [hx] at he
            cases he
            exact herr env db e tx' hx
  · simp only [Engine.step, Trace.next] at hb ⊢
    cases hf : E.fault env with
    | some e =>
        rw [hf] at hb
        cases hb
    | none =>
        rw [hf] at hb
        simp only at hb ⊢
        cases hx : E.exec q start env (writeAll db ws) with
        | error e =>
            rw [hx] at hb
            cases hb
        | ok r =>
            rw [hx] at hb
            cases hb
            exact h env db r.1 r.2 hx

omit [Store D Row] in
/-- What a statement that commits at once answers. -/
theorem autocommit {q : Stmt} {env : Env} {db : D} {b : S q} {Q : Trace D Row Env → Prop}
    (hb : (E.autocommit q env db tx).answer = .ok b)
    (h : ∀ rows, E.exec q env env db = .ok (rows, b) →
      Q ⟨seen ++ [db], addBatch done rows, tx⟩) :
    Q ((⟨seen, done, tx⟩ : Trace D Row Env).next db (E.autocommit q env db tx)) := by
  simp only [Engine.autocommit, Trace.next] at hb ⊢
  cases hf : E.fault env with
  | some e =>
      rw [hf] at hb
      cases hb
  | none =>
      rw [hf] at hb
      simp only at hb ⊢
      cases hx : E.exec q env env db with
      | error e =>
          rw [hx] at hb
          cases hb
      | ok r =>
          rw [hx] at hb
          cases hb
          exact h r.1 hx

omit [Store D Row] in
/-- How a statement that commits at once fails. -/
theorem autocommit_error [Bears E P] {q : Stmt} {env : Env} {db : D} {e : Err}
    {tr : Trace D Row Env} (he : (E.autocommit q env db tx).answer = .error e)
    (h : E.exec q env env db = .error e → P e tr) : P e tr := by
  rw [Engine.autocommit] at he
  cases hf : E.fault env with
  | some e' =>
      rw [hf] at he
      cases he
      exact Bears.fault hf _
  | none =>
      rw [hf] at he
      simp only at he
      cases hx : E.exec q env env db with
      | ok r =>
          rw [hx] at he
          cases he
      | error e' =>
          rw [hx] at he
          cases he
          exact h hx

/-- A statement that commits at once, by what it answers. -/
theorem at_once {q : Stmt} {Q : S q → Trace D Row Env → Prop}
    (hallowed : allowed (.pool q) ⟨seen, done, tx⟩)
    (herr : ∀ env db e, (E.autocommit q env db tx).answer = .error e →
      P e ⟨seen ++ [db], done, tx⟩)
    (h : ∀ env db rows b, E.exec q env env db = .ok (rows, b) →
      Q b ⟨seen ++ [db], addBatch done rows, tx⟩) :
    Takes E allowed (Await.await (.pool q : Command Stmt Ext)) ⟨seen, done, tx⟩ Q P := by
  refine ⟨hallowed, fun env db => ?_⟩
  have htx : (E.autocommit q env db tx).tx = tx := by
    rw [Engine.autocommit]
    split
    · rfl
    · split <;> rfl
  show Resolves Q P (E.autocommit q env db tx).answer
    ((⟨seen, done, tx⟩ : Trace D Row Env).next db (E.autocommit q env db tx))
  cases ha : (E.autocommit q env db tx).answer with
  | ok b => exact autocommit (Q := Q b) ha fun rows hx => h env db rows b hx
  | error e =>
      have hpublish : (E.autocommit q env db tx).publish = [] :=
        Engine.publish_of_error (c := .pool q) ha
      rw [Trace.next, hpublish, htx]
      exact herr env db e ha

/-- A statement on another connection. -/
theorem pool [Bears E P] {q : Stmt} {Q : S q → Trace D Row Env → Prop}
    (hallowed : allowed (.pool q) ⟨seen, done, tx⟩)
    (herr : ∀ env db e, E.exec q env env db = .error e → P e ⟨seen ++ [db], done, tx⟩)
    (h : ∀ env db rows b, E.exec q env env db = .ok (rows, b) →
      Q b ⟨seen ++ [db], addBatch done rows, tx⟩) :
    Takes E allowed (Await.await (.pool q : Command Stmt Ext)) ⟨seen, done, tx⟩ Q P :=
  at_once hallowed (fun env db e he => autocommit_error he (herr env db e)) h

/-- A statement on the client after its transaction. -/
theorem client_idle {q : Stmt} {Q : S q → Trace D Row Env → Prop}
    (h : Takes E allowed (Await.await (.pool q : Command Stmt Ext)) ⟨seen, done, .idle⟩ Q P)
    (hallowed : allowed (.client q) ⟨seen, done, .idle⟩) :
    Takes E allowed (Await.await (.client q : Command Stmt Ext)) ⟨seen, done, .idle⟩ Q P :=
  ⟨hallowed, h.2⟩

/-- A `COMMIT` that succeeds has committed what the transaction held. -/
theorem commit [Bears E P] {Q : Unit → Trace D Row Env → Prop}
    (hallowed : allowed .commit ⟨seen, done, tx⟩)
    (h : ∀ db, Q () ⟨seen ++ [db], addBatch done tx.writes, .idle⟩) :
    Takes E allowed (Await.await (.commit : Command Stmt Ext)) ⟨seen, done, tx⟩ Q P := by
  refine await hallowed (fun env db e _ he => ?_) fun env db b hb => ?_
  · simp only [Engine.step] at he
    cases hf : E.fault env with
    | some e' =>
        rw [hf] at he
        cases he
        exact Bears.fault hf _
    | none =>
        rw [hf] at he
        cases tx <;> cases he
  · have hnext : (⟨seen, done, tx⟩ : Trace D Row Env).next db (E.step .commit env db tx) =
        ⟨seen ++ [db], addBatch done tx.writes, .idle⟩ := by
      simp only [Engine.step, Trace.next] at hb ⊢
      cases hf : E.fault env with
      | some e =>
          rw [hf] at hb
          cases hb
      | none => cases tx <;> rfl
    rw [hnext]
    exact h db

/-- A command to the outside leaves the transaction as it is. -/
theorem ext {e : Ext} {Q : X e → Trace D Row Env → Prop}
    (hallowed : allowed (.ext e) ⟨seen, done, tx⟩)
    (herr : ∀ env db err, E.ext e env = .error err → P err ⟨seen ++ [db], done, tx⟩)
    (h : ∀ env db b, E.ext e env = .ok b → Q b ⟨seen ++ [db], done, tx⟩) :
    Takes E allowed (Await.await (.ext e : Command Stmt Ext)) ⟨seen, done, tx⟩ Q P := by
  refine ⟨hallowed, fun env db => ?_⟩
  show Resolves Q P (E.ext e env) (⟨seen ++ [db], done, tx⟩ : Trace D Row Env)
  cases ha : E.ext e env with
  | ok b => exact h env db b ha
  | error err => exact herr env db err ha

end Takes

namespace Idles

variable {Q : β → Trace D Row Env → Prop}

/-- A return between transactions. -/
theorem pure {b : β} (h : Q b ⟨seen, done, .idle⟩) :
    Idles E allowed (Pure.pure b) seen done Q P :=
  Takes.pure ⟨rfl, h⟩

/-- A throw between transactions. -/
theorem throw {e : Err} (h : P e ⟨seen, done, .idle⟩) :
    Idles E allowed (MonadExcept.throw e : Await (Command Stmt Ext) (Command.Res S X) Err β)
      seen done Q P :=
  Takes.throw ⟨rfl, h⟩

/-- A sequence between transactions, when its first part ends between transactions. -/
theorem bind {p : Await (Command Stmt Ext) (Command.Res S X) Err β}
    {f : β → Await (Command Stmt Ext) (Command.Res S X) Err γ}
    {Q : γ → Trace D Row Env → Prop}
    (h : Idles E allowed p seen done
      (fun b tr => Idles E allowed (f b) tr.seen tr.done Q P) P) :
    Idles E allowed (p >>= f) seen done Q P := by
  refine Takes.bind (Takes.weaken h (fun b tr' hr => ?_) fun _ _ hr => hr)
  obtain ⟨seen', done', tx'⟩ := tr'
  obtain ⟨rfl, hr⟩ := hr
  exact hr

/-- Both postconditions may be weakened between transactions. -/
theorem weaken {p : Await (Command Stmt Ext) (Command.Res S X) Err β}
    {Q Q' : β → Trace D Row Env → Prop} {P P' : Err → Trace D Row Env → Prop}
    (h : Idles E allowed p seen done Q P) (hQ : ∀ b tr, Q b tr → Q' b tr)
    (hP : ∀ e tr, P e tr → P' e tr) : Idles E allowed p seen done Q' P' :=
  Takes.weaken h (fun b tr hr => ⟨hr.1, hQ b tr hr.2⟩) fun e tr hr => ⟨hr.1, hP e tr hr.2⟩

/-- A command to the outside between transactions. -/
theorem ext {e : Ext} {Q : X e → Trace D Row Env → Prop}
    (hallowed : allowed (.ext e) ⟨seen, done, .idle⟩)
    (herr : ∀ env db err, E.ext e env = .error err → P err ⟨seen ++ [db], done, .idle⟩)
    (h : ∀ env db b, E.ext e env = .ok b → Q b ⟨seen ++ [db], done, .idle⟩) :
    Idles E allowed (Await.await (.ext e : Command Stmt Ext)) seen done Q P :=
  Takes.ext hallowed (fun env db err he => ⟨rfl, herr env db err he⟩) fun env db b hb =>
    ⟨rfl, h env db b hb⟩

/-- A statement on the pool commits what it writes as a batch of its own. -/
theorem pool [Bears E P] {q : Stmt} {Q : S q → Trace D Row Env → Prop}
    (hallowed : allowed (.pool q) ⟨seen, done, .idle⟩)
    (herr : ∀ env db e, E.exec q env env db = .error e → P e ⟨seen ++ [db], done, .idle⟩)
    (h : ∀ env db rows b, E.exec q env env db = .ok (rows, b) →
      Q b ⟨seen ++ [db], addBatch done rows, .idle⟩) :
    Idles E allowed (Await.await (.pool q : Command Stmt Ext)) seen done Q P :=
  Takes.at_once hallowed
    (fun env db e he => ⟨rfl, Takes.autocommit_error he (herr env db e)⟩)
    fun env db rows b hx => ⟨rfl, h env db rows b hx⟩

/-- `ROLLBACK` ends the transaction and only adds to what was seen and done. -/
theorem rollback [Bears E P] (hallowed : ∀ tr, allowed .rollback tr) (tr : Trace D Row Env) :
    Takes E allowed (Await.await (.rollback : Command Stmt Ext)) tr
      (fun _ tr' => tr'.tx = .idle ∧ tr.Le tr') fun e tr' => tr'.tx = .idle ∧ P e tr' := by
  refine ⟨hallowed _, fun env db => ?_⟩
  show Resolves _ _ (E.step .rollback env db tr.tx).answer
    (tr.next db (E.step .rollback env db tr.tx))
  cases hf : E.fault env with
  | none =>
      have hstep : E.step .rollback env db tr.tx = ⟨[], .idle, .ok ()⟩ := by
        simp only [Engine.step, hf]
      rw [hstep]
      exact ⟨rfl, Trace.le_next _ _ _⟩
  | some e =>
      have hstep : E.step .rollback env db tr.tx = ⟨[], .idle, .error e⟩ := by
        simp only [Engine.step, hf]
      rw [hstep]
      exact ⟨rfl, Bears.fault hf _⟩

/-- `try { body } catch (err) { await rollback; handler } finally { fin }`: the body ends its
transaction, or the handler rolls it back. -/
theorem tryFinally {body : Await (Command Stmt Ext) (Command.Res S X) Err β}
    {rollback : Await (Command Stmt Ext) (Command.Res S X) Err Unit}
    {handler : Err → Await (Command Stmt Ext) (Command.Res S X) Err β}
    {fin : Await (Command Stmt Ext) (Command.Res S X) Err Unit}
    {P₀ : Err → Trace D Row Env → Prop} (hQ : Persists Q) (hP : Persists P) (hP₀ : Persists P₀)
    (hbody : Takes E allowed body ⟨seen, done, .idle⟩ (fun b tr => tr.tx = .idle ∧ Q b tr) P₀)
    (hrollback : ∀ tr, Takes E allowed rollback tr (fun _ tr' => tr'.tx = .idle ∧ tr.Le tr')
      fun e tr' => tr'.tx = .idle ∧ P e tr')
    (hhandler : ∀ e seen' done', P₀ e ⟨seen', done', .idle⟩ →
      Idles E allowed (handler e) seen' done' Q P)
    (hfin : ∀ seen' done', Idles E allowed fin seen' done'
      (fun _ tr => Trace.Le ⟨seen', done', .idle⟩ tr) P) :
    Idles E allowed (Await.tryFinally body (fun e => do rollback; handler e) fin) seen done Q
      P := by
  -- The last block keeps what comes back, or throws.
  have hend : ∀ (r : Except Err β) (tr : Trace D Row Env), tr.tx = .idle →
      (∀ b, r = .ok b → Q b tr) → (∀ e, r = .error e → P e tr) →
      ∀ K : Except Err Unit → Trace D Row Env → Prop,
        (∀ tr', Resolves (fun b tr => tr.tx = .idle ∧ Q b tr)
          (fun e tr => tr.tx = .idle ∧ P e tr) r tr' → K (.ok ()) tr') →
        (∀ e tr', tr'.tx = .idle ∧ P e tr' → K (.error e) tr') →
        Await.wp (E.tracing allowed) fin tr K := by
    rintro r ⟨seen', done', _⟩ rfl hok herr K hK hK'
    refine Await.wp_mono tracing_mono (hfin seen' done') fun f tr' hf => ?_
    cases f with
    | error e => exact hK' e tr' hf
    | ok _ =>
        refine hK tr' ?_
        cases r with
        | ok b => exact ⟨hf.1, hQ b _ _ hf.2 (hok b rfl)⟩
        | error e => exact ⟨hf.1, hP e _ _ hf.2 (herr e rfl)⟩
  have hok : ∀ (b : β) (tr : Trace D Row Env), tr.tx = .idle ∧ Q b tr → _ := fun b tr h =>
    hend (.ok b) tr h.1 (fun b' hb => by cases hb; exact h.2) fun _ he => nomatch he
  have herr : ∀ (e : Err) (tr : Trace D Row Env), tr.tx = .idle ∧ P e tr → _ := fun e tr h =>
    hend (.error e) tr h.1 (fun _ hb => nomatch hb) fun e' he => by cases he; exact h.2
  unfold Idles Takes
  rw [Await.wp_tryFinally]
  refine Await.wp_mono tracing_mono hbody fun r tr₁ hr => ?_
  cases r with
  | ok b => exact hok b tr₁ hr _ (fun _ h => h) fun _ _ h => h
  | error e =>
      simp only
      rw [Await.wp_bind]
      refine Await.wp_mono tracing_mono (hrollback tr₁) fun r' tr₂ hr₂ => ?_
      cases r' with
      | error e' => exact herr e' tr₂ hr₂ _ (fun _ h => h) fun _ _ h => h
      | ok _ =>
          obtain ⟨seen', done', _⟩ := tr₂
          obtain ⟨rfl, hle⟩ : _ = Tx.idle ∧ _ := hr₂
          refine Await.wp_mono tracing_mono (hhandler e seen' done' (hP₀ e _ _ hle hr))
            fun r tr₃ hr₃ => ?_
          cases r with
          | ok b => exact hok b tr₃ hr₃ _ (fun _ h => h) fun _ _ h => h
          | error e' => exact herr e' tr₃ hr₃ _ (fun _ h => h) fun _ _ h => h

/-- A program that idles through to its answer obeys the discipline. -/
theorem obeys {p : Await (Command Stmt Ext) (Command.Res S X) Err β}
    {answers : Except Err β → Trace D Row Env → Prop}
    (h : Idles E allowed p seen done (fun b => answers (.ok b)) fun e => answers (.error e)) :
    Obeys E allowed answers p.run ⟨seen, done, .idle⟩ := by
  refine Prog.wp_mono tracing_mono h fun r tr' hr => ?_
  cases r with
  | ok b => exact ⟨by rw [hr.1]; rfl, hr.2⟩
  | error e => exact ⟨by rw [hr.1]; rfl, hr.2⟩

end Idles

end

/-! ### Disciplines -/

/-- A discipline of the sessions. `allowed` says which commands a session may run after its
trace, `answers` what its call may answer after it, and `held` what is known about the row
versions it holds and the committed database.

- `release`, `publish`: at the end of a transaction;
- `client`, `pool`: after a statement of the session;
- `others`: after a commit of another session. -/
structure Discipline (E : Engine D Row Stmt Ext Env Err S X) (Call α : Type) where
  allowed : Command Stmt Ext → Trace D Row Env → Prop
  answers : Call → α → Trace D Row Env → Prop
  held : D → List Row → Prop
  release : ∀ {db ws}, held db ws → held db []
  publish : ∀ {db ws}, held db ws → held (writeAll db ws) []
  client : ∀ {q tr start env db rows b}, allowed (.client q) tr → held db tr.tx.writes →
    E.exec q start env (writeAll db tr.tx.writes) = .ok (rows, b) →
    held db (tr.tx.writes ++ rows)
  pool : ∀ {q tr env db rows b}, allowed (.pool q) tr → held db tr.tx.writes →
    E.exec q env env db = .ok (rows, b) → held (writeAll db rows) tr.tx.writes
  others : ∀ {db ws rows}, held db ws → held (writeAll db rows) [] →
    compatible (D := D) rows ws = true → held (writeAll db rows) ws

section
variable {Call α : Type} {E : Engine D Row Stmt Ext Env Err S X}

/-- A command keeps what a session knows about its row versions. -/
theorem Discipline.step (d : Discipline E Call α) {c : Command Stmt Ext} {env : Env} {db : D}
    {tr : Trace D Row Env} (hallowed : d.allowed c tr) (h : d.held db tr.tx.writes) :
    d.held (writeAll db (E.step c env db tr.tx).publish)
      (E.step c env db tr.tx).tx.writes := by
  obtain ⟨seen, done, tx⟩ := tr
  cases c with
  | begin =>
      simp only [Engine.step]
      split
      · exact h
      · split
        · exact h
        · exact d.release h
        · exact d.release h
  | commit =>
      simp only [Engine.step]
      split
      · exact d.release h
      · exact d.publish h
      · exact d.release h
      · exact d.release h
  | rollback =>
      simp only [Engine.step]
      split
      · exact d.release h
      · exact d.release h
  | client q =>
      simp only [Engine.step]
      split
      · exact h
      · -- Without a transaction the statement commits at once.
        rw [Engine.autocommit]
        split
        · exact h
        · split
          · rename_i rows b hx
            exact d.publish (d.client hallowed h hx)
          · exact h
      · split
        · exact d.release h
        · split
          · rename_i rows b hx
            exact d.client hallowed h hx
          · exact d.release h
  | pool q =>
      simp only [Engine.step, Engine.autocommit]
      split
      · exact h
      · split
        · rename_i rows b hx
          exact d.pool hallowed h hx
        · exact h
  | ext e => exact h

/-- `p` is true of the database at some moment from `born` to `now`. -/
def During (born now : Timeline D Row) (p : D → Prop) : Prop := ∃ u, born ≤ u ∧ u ≤ now ∧ p u.now

/-- `tr` is the trace of a session that has started at `born`, in a run with the log `t`. -/
structure Trace.In (tr : Trace D Row Env) (born t : Timeline D Row) : Prop where
  le : born ≤ t
  /-- The session has run its commands one after the other. -/
  seen : ∃ us : List (Timeline D Row), tr.seen = us.map Timeline.now ∧ us.Pairwise (· ≤ ·) ∧
    ∀ u ∈ us, born ≤ u ∧ u ≤ t
  done : ∀ rows ∈ tr.done, ∃ u, born ≤ u ∧ u.commit rows ≤ t

/-- A call that has just begun is in its history with an empty trace. -/
theorem Trace.In.start (t : Timeline D Row) : (⟨[], [], .idle⟩ : Trace D Row Env).In t t where
  le := le_refl t
  seen := ⟨[], rfl, List.Pairwise.nil, fun _ h => absurd h List.not_mem_nil⟩
  done _ h := absurd h List.not_mem_nil

/-- What a call saw held at a moment of its life. -/
theorem Trace.In.saw {tr : Trace D Row Env} {born t : Timeline D Row} (h : tr.In born t)
    {p : D → Prop} (hp : tr.Saw p) : During born t p := by
  obtain ⟨us, hseen, -, hle⟩ := h.seen
  obtain ⟨db, hdb, hp⟩ := hp
  rw [hseen] at hdb
  obtain ⟨u, hu, rfl⟩ := List.mem_map.mp hdb
  exact ⟨u, (hle u hu).1, (hle u hu).2, hp⟩

/-- What a call saw in order held at two moments of its life, in that order. -/
theorem Trace.In.sawThen {tr : Trace D Row Env} {born t : Timeline D Row} (h : tr.In born t)
    {p : D → D → Prop} (hp : tr.SawThen p) :
    ∃ u u', born ≤ u ∧ u ≤ u' ∧ u' ≤ t ∧ p u.now u'.now := by
  obtain ⟨us, hseen, hpair, hle⟩ := h.seen
  obtain ⟨db, db', hsub, hp⟩ := hp
  rw [hseen] at hsub
  obtain ⟨us', hsub', hus'⟩ := List.sublist_map_iff.mp hsub
  -- The two moments, in their order.
  match us', hus' with
  | [u, u'], hus' =>
      simp only [List.map_cons, List.map_nil, List.cons.injEq, and_true] at hus'
      obtain ⟨rfl, rfl⟩ := hus'
      have hu : u ∈ us := hsub'.subset List.mem_cons_self
      have hu' : u' ∈ us := hsub'.subset (List.mem_cons_of_mem _ List.mem_cons_self)
      have huu' : u ≤ u' := (List.pairwise_pair.mp (hpair.sublist hsub'))
      exact ⟨u, u', (hle u hu).1, huu', (hle u' hu').2, hp⟩

/-- A commit of another call keeps the trace in the history. -/
theorem Trace.In.publish {tr : Trace D Row Env} {born t : Timeline D Row} (h : tr.In born t)
    (rows : List Row) : tr.In born (t.publish rows) where
  le := Timeline.le_publish rows h.le
  seen := by
    obtain ⟨us, hseen, hpair, hle⟩ := h.seen
    exact ⟨us, hseen, hpair, fun u hu => ⟨(hle u hu).1, Timeline.le_publish rows (hle u hu).2⟩⟩
  done rows' hrows' := by
    obtain ⟨u, hborn, hu⟩ := h.done rows' hrows'
    exact ⟨u, hborn, Timeline.le_publish rows hu⟩

/-- A command goes into the trace. -/
theorem Trace.In.next {A : Type} {tr : Trace D Row Env} {born t : Timeline D Row}
    (h : tr.In born t) (o : Outcome Env Row Err A) :
    (tr.next t.now o).In born (t.publish o.publish) where
  le := (h.publish o.publish).le
  seen := by
    obtain ⟨us, hseen, hpair, hle⟩ := h.seen
    refine ⟨us ++ [t], ?_, ?_, fun u hu => ?_⟩
    · show tr.seen ++ [t.now] = (us ++ [t]).map Timeline.now
      rw [hseen, List.map_append]
      rfl
    · refine List.pairwise_append.mpr ⟨hpair, List.pairwise_singleton _ _, fun u hu u' hu' => ?_⟩
      obtain rfl := List.mem_singleton.mp hu'
      exact (hle u hu).2
    · rcases List.mem_append.mp hu with hu | hu
      · exact ⟨(hle u hu).1, Timeline.le_publish _ (hle u hu).2⟩
      · obtain rfl := List.mem_singleton.mp hu
        exact ⟨h.le, Timeline.le_publish _ (le_refl u)⟩
  done rows hrows := by
    rcases addBatch_cases hrows with hrows | ⟨rfl, hne⟩
    · exact (h.publish o.publish).done rows hrows
    · refine ⟨t, h.le, ?_⟩
      cases hp : o.publish with
      | nil => exact absurd hp hne
      | cons r rows => exact le_refl _

/-- The session obeys the discipline after its trace. -/
def Session.Obeys (d : Discipline E Call α) (s : Session D Row Stmt Ext Env Err Call α S X)
    (t : Timeline D Row) : Prop :=
  ∃ tr : Trace D Row Env, tr.tx = s.tx ∧ tr.In s.born t ∧
    ReadCommitted.Obeys E d.allowed (d.answers s.call) s.prog tr

/-- The invariant of a discipline. -/
structure World.Orderly (d : Discipline E Call α) (w : World D Row Stmt Ext Env Err Call α S X) :
    Prop where
  base : d.held w.db []
  obeys : ∀ s ∈ w.sessions, s.Obeys d w.timeline
  held : ∀ s ∈ w.sessions, d.held w.db s.tx.writes
  disjoint : ∀ (i j : Nat) s s', w.sessions[i]? = some s → w.sessions[j]? = some s' → i ≠ j →
    compatible (D := D) s.tx.writes s'.tx.writes = true

/-- A step only adds to the log. -/
theorem World.le_of_step
    {body : Call → Prog (Command Stmt Ext) (fun c => Except Err (c.Res S X)) α}
    {w w' : World D Row Stmt Ext Env Err Call α S X} {a : Action Call Env}
    (h : w.step E body a = some w') : w.timeline ≤ w'.timeline := by
  rcases World.step_cases h with ⟨c, -, rfl⟩ | ⟨i, env, s, c, k, -, -, -, -, -, rfl⟩
  · exact le_refl _
  · exact Timeline.le_publish _ (le_refl _)

/-- A run only adds to the history. -/
theorem Run.le_timeline
    {body : Call → Prog (Command Stmt Ext) (fun c => Except Err (c.Res S X)) α}
    {ok : World D Row Stmt Ext Env Err Call α S X → Action Call Env → Prop}
    {w w' : World D Row Stmt Ext Env Err Call α S X} (h : Run E body ok w w') :
    w.timeline ≤ w'.timeline := by
  induction h with
  | refl => exact le_refl _
  | step a _ _ hs ih => exact ih.trans (World.le_of_step hs)

/-- A call that is new in a later world has started after the earlier one. -/
theorem Run.le_born {body : Call → Prog (Command Stmt Ext) (fun c => Except Err (c.Res S X)) α}
    {ok : World D Row Stmt Ext Env Err Call α S X → Action Call Env → Prop}
    {w w' : World D Row Stmt Ext Env Err Call α S X} (h : Run E body ok w w') {i : Nat}
    (hnew : w.sessions.length ≤ i) {s' : Session D Row Stmt Ext Env Err Call α S X}
    (hi : w'.sessions[i]? = some s') : w.timeline ≤ s'.born := by
  induction h generalizing s' with
  | refl =>
      rw [List.getElem?_eq_none hnew] at hi
      cases hi
  | step a hrun _ hs ih =>
      rcases World.step_cases hs with ⟨c, -, rfl⟩ | ⟨j, env, s, c, k, -, hj, -, -, -, rfl⟩
      · rcases getElem?_snoc_cases hi with hi | ⟨-, rfl⟩
        · exact ih hi
        · exact hrun.le_timeline
      · rcases getElem?_set_cases hi with ⟨rfl, rfl⟩ | ⟨-, hi⟩
        · have hborn : w.timeline ≤ s.born := ih hj
          exact hborn
        · exact ih hi

/-- What is written by a step is compatible with what every other session holds. -/
theorem World.step_unblocked
    {body : Call → Prog (Command Stmt Ext) (fun c => Except Err (c.Res S X)) α}
    {w w' : World D Row Stmt Ext Env Err Call α S X} {i : Nat} {env : Env}
    {s : Session D Row Stmt Ext Env Err Call α S X} {c : Command Stmt Ext}
    {k : Except Err (c.Res S X) → Prog (Command Stmt Ext) (fun c => Except Err (c.Res S X)) α}
    (h : w.step E body (.step i env) = some w') (hi : w.sessions[i]? = some s)
    (hk : s.prog = .call c k) {j : Nat} {s' : Session D Row Stmt Ext Env Err Call α S X}
    (hj : w.sessions[j]? = some s') (hne : j ≠ i) :
    compatible (D := D) (E.step c env w.timeline.now s.tx).tx.writes s'.tx.writes = true := by
  simp only [World.step, hi, hk] at h
  split at h
  · rename_i hu
    have hm : s' ∈ w.sessions.eraseIdx i := List.mem_eraseIdx_iff_getElem?.mpr ⟨j, hne, hj⟩
    have hc := List.all_eq_true.mp hu s' hm
    rw [compatible_iff] at hc ⊢
    exact fun r hr => hc r (List.mem_append_right _ hr)
  · cases h

/-- A symmetric relation between the elements of a list, when one of them is replaced. -/
theorem pairs_set {β : Type} {R : β → β → Prop} {l : List β} {i : Nat} {x : β}
    (hsymm : ∀ a b, R a b → R b a)
    (h : ∀ (j j' : Nat) a b, l[j]? = some a → l[j']? = some b → j ≠ j' → R a b)
    (hx : ∀ (j : Nat) b, l[j]? = some b → j ≠ i → R x b) (j j' : Nat) (a b : β)
    (ha : (l.set i x)[j]? = some a) (hb : (l.set i x)[j']? = some b) (hne : j ≠ j') : R a b := by
  rcases getElem?_set_cases ha with ⟨rfl, rfl⟩ | ⟨hj, ha'⟩
  · rcases getElem?_set_cases hb with ⟨rfl, -⟩ | ⟨hj', hb'⟩
    · exact absurd rfl hne
    · exact hx j' b hb' hj'
  · rcases getElem?_set_cases hb with ⟨rfl, rfl⟩ | ⟨-, hb'⟩
    · exact hsymm _ _ (hx j a ha' hj)
    · exact h j j' a b ha' hb' hne

/-- A call starts: it has done nothing and holds nothing. -/
theorem World.Orderly.spawn {d : Discipline E Call α}
    {w : World D Row Stmt Ext Env Err Call α S X} (hw : w.Orderly d) {c : Call}
    {p : Prog (Command Stmt Ext) (fun c => Except Err (c.Res S X)) α}
    (hp : Obeys E d.allowed (d.answers c) p ⟨[], [], .idle⟩) :
    World.Orderly d { w with sessions := w.sessions ++ [⟨c, w.timeline, none, .idle, p⟩] } where
  base := hw.base
  obeys s hs := by
    rcases List.mem_append.mp hs with hs | hs
    · exact hw.obeys s hs
    · obtain rfl := List.mem_singleton.mp hs
      exact ⟨⟨[], [], .idle⟩, rfl, Trace.In.start _, hp⟩
  held s hs := by
    rcases List.mem_append.mp hs with hs | hs
    · exact hw.held s hs
    · obtain rfl := List.mem_singleton.mp hs
      exact hw.base
  disjoint i j s s' hi hj hne := by
    rcases getElem?_snoc_cases hi with hi | ⟨-, rfl⟩
    · rcases getElem?_snoc_cases hj with hj | ⟨-, rfl⟩
      · exact hw.disjoint i j s s' hi hj hne
      · exact compatible_nil _
    · exact nil_compatible _

/-- A step keeps the world orderly, given that what is spawned obeys. -/
theorem World.Orderly.step [LawfulStore D Row] {d : Discipline E Call α}
    {body : Call → Prog (Command Stmt Ext) (fun c => Except Err (c.Res S X)) α}
    {w w' : World D Row Stmt Ext Env Err Call α S X} {a : Action Call Env} (hw : w.Orderly d)
    (hs : w.step E body a = some w')
    (hspawn : ∀ c, a = .spawn c →
      Obeys E d.allowed (d.answers c) (body c) ⟨[], [], .idle⟩) : w'.Orderly d := by
  rcases World.step_cases hs with ⟨c, rfl, rfl⟩ | ⟨i, env, s, c, k, rfl, hi, hk, hb, hc, rfl⟩
  · exact hw.spawn (hspawn c rfl)
  · have hsm := List.mem_of_getElem? hi
    obtain ⟨tr, htx, hin, hobeys⟩ := hw.obeys s hsm
    rw [hk] at hobeys
    obtain ⟨hallowed, hrest⟩ := hobeys
    have hown : d.held (writeAll w.timeline.now (E.step c env w.timeline.now tr.tx).publish)
        (E.step c env w.timeline.now tr.tx).tx.writes :=
      d.step hallowed (htx ▸ hw.held s hsm)
    rw [htx] at hown
    have hnow : (w.timeline.publish (w.batch E i env)).now =
        writeAll w.db (E.step c env w.timeline.now s.tx).publish := by
      rw [Timeline.now_publish, hb]
      rfl
    have hbase := d.release hown
    refine ⟨?_, ?_, ?_, ?_⟩
    · show d.held (w.timeline.publish (w.batch E i env)).now []
      rw [hnow]
      exact hbase
    · intro s' hs'
      rcases List.mem_or_eq_of_mem_set hs' with hs' | rfl
      · obtain ⟨tr', htx', hin', hobeys'⟩ := hw.obeys s' hs'
        exact ⟨tr', htx', hin'.publish _, hobeys'⟩
      · refine ⟨tr.next w.timeline.now (E.step c env w.timeline.now s.tx), rfl, ?_, ?_⟩
        · rw [hb]
          exact hin.next _
        · have hcont := hrest env w.timeline.now
          rw [htx] at hcont
          exact hcont
    · intro s' hs'
      show d.held (w.timeline.publish (w.batch E i env)).now s'.tx.writes
      rw [hnow]
      obtain ⟨j, hj⟩ := List.mem_iff_getElem?.mp hs'
      rcases getElem?_set_cases hj with ⟨-, rfl⟩ | ⟨hij, hj⟩
      · exact hown
      · -- Another session: the commit is compatible with what it holds.
        have hcj := hc j s' hj hij
        rw [hb] at hcj
        exact d.others (hw.held s' (List.mem_of_getElem? hj)) hbase hcj
    · exact pairs_set (fun _ _ => compatible_comm) hw.disjoint fun j s' hj hne =>
        World.step_unblocked hs hi hk hj hne

/-- Every world of a run is orderly. -/
theorem Run.orderly [LawfulStore D Row] (d : Discipline E Call α)
    {body : Call → Prog (Command Stmt Ext) (fun c => Except Err (c.Res S X)) α}
    {ok : World D Row Stmt Ext Env Err Call α S X → Action Call Env → Prop}
    {t : Timeline D Row} {w : World D Row Stmt Ext Env Err Call α S X}
    (hbody : ∀ w c, ok w (.spawn c) →
      Obeys E d.allowed (d.answers c) (body c) ⟨[], [], .idle⟩)
    (h₀ : d.held t.now []) (h : Run E body ok (World.start t) w) : w.Orderly d := by
  induction h with
  | refl =>
      exact ⟨h₀, fun s hs => absurd hs List.not_mem_nil, fun s hs => absurd hs List.not_mem_nil,
        fun i j s s' hi => by simp [World.start] at hi⟩
  | @step w w' a _ ha hs ih => exact ih.step hs fun c hc => hbody w c (hc ▸ ha)

/-- The next command of a session is allowed after its trace. -/
theorem World.Orderly.sends {d : Discipline E Call α} {w : World D Row Stmt Ext Env Err Call α S X}
    (hw : w.Orderly d) {s : Session D Row Stmt Ext Env Err Call α S X} (hs : s ∈ w.sessions)
    {c : Command Stmt Ext}
    {k : Except Err (c.Res S X) → Prog (Command Stmt Ext) (fun c => Except Err (c.Res S X)) α}
    (hk : s.prog = .call c k) :
    ∃ tr : Trace D Row Env, tr.tx = s.tx ∧ tr.In s.born w.timeline ∧ d.allowed c tr := by
  obtain ⟨tr, htx, hin, hobeys⟩ := hw.obeys s hs
  rw [hk] at hobeys
  exact ⟨tr, htx, hin, hobeys.1⟩

/-- What a finished call has answered. -/
theorem World.Orderly.answered {d : Discipline E Call α}
    {w : World D Row Stmt Ext Env Err Call α S X} (hw : w.Orderly d)
    {s : Session D Row Stmt Ext Env Err Call α S X} (hs : s ∈ w.sessions) {a : α}
    (ha : s.prog = .ret a) :
    ∃ tr : Trace D Row Env, tr.In s.born w.timeline ∧ d.answers s.call a tr := by
  obtain ⟨tr, -, hin, hobeys⟩ := hw.obeys s hs
  rw [ha] at hobeys
  exact ⟨tr, hin, hobeys.2⟩

/-! ### Commits -/

/-- What a session that keeps to the discipline may commit at the committed database `db`. -/
inductive Discipline.Publishes (d : Discipline E Call α) (db : D) (tr : Trace D Row Env) :
    List Row → Prop where
  | commit (hallowed : d.allowed .commit tr) : d.Publishes db tr tr.tx.writes
  | client {q : Stmt} {env : Env} {rows : List Row} {b : S q} (hallowed : d.allowed (.client q) tr)
      (hx : E.exec q env env db = .ok (rows, b)) : d.Publishes db tr rows
  | pool {q : Stmt} {env : Env} {rows : List Row} {b : S q} (hallowed : d.allowed (.pool q) tr)
      (hx : E.exec q env env db = .ok (rows, b)) : d.Publishes db tr rows

/-- A command that publishes was allowed to. -/
theorem Discipline.publishes {d : Discipline E Call α} {c : Command Stmt Ext} {env : Env} {db : D}
    {tr : Trace D Row Env} (hallowed : d.allowed c tr)
    (hne : (E.step c env db tr.tx).publish ≠ []) :
    d.Publishes db tr (E.step c env db tr.tx).publish := by
  have auto : ∀ {q : Stmt}, (E.autocommit q env db tr.tx).publish ≠ [] →
      ∃ b, E.exec q env env db = .ok ((E.autocommit q env db tr.tx).publish, b) := by
    intro q hne
    rw [Engine.autocommit] at hne ⊢
    split at hne
    · exact absurd rfl hne
    · split at hne
      · rename_i rows b hx
        exact ⟨b, hx⟩
      · exact absurd rfl hne
  obtain ⟨seen, done, tx⟩ := tr
  cases c with
  | begin =>
      simp only [Engine.step] at hne
      split at hne
      · exact absurd rfl hne
      · split at hne <;> exact absurd rfl hne
  | commit =>
      simp only [Engine.step] at hne ⊢
      split at hne
      · exact absurd rfl hne
      · exact .commit hallowed
      · exact absurd rfl hne
      · exact absurd rfl hne
  | rollback =>
      simp only [Engine.step] at hne
      split at hne <;> exact absurd rfl hne
  | client q =>
      cases tx with
      | idle =>
          obtain ⟨b, hx⟩ := auto hne
          exact .client hallowed hx
      | failed => exact absurd rfl hne
      | active start ws =>
          simp only [Engine.step] at hne
          split at hne
          · exact absurd rfl hne
          · split at hne <;> exact absurd rfl hne
  | pool q =>
      obtain ⟨b, hx⟩ := auto hne
      exact .pool hallowed hx
  | ext e => exact absurd rfl hne

/-- What is true of every batch that a session may commit after what the log holds is true of
every batch of a run. -/
theorem Run.commits [LawfulStore D Row] (d : Discipline E Call α)
    {body : Call → Prog (Command Stmt Ext) (fun c => Except Err (c.Res S X)) α}
    {ok : World D Row Stmt Ext Env Err Call α S X → Action Call Env → Prop} {db : D}
    {w : World D Row Stmt Ext Env Err Call α S X} {R : Timeline D Row → List Row → Prop}
    (hbody : ∀ w c, ok w (.spawn c) →
      Obeys E d.allowed (d.answers c) (body c) ⟨[], [], .idle⟩)
    (h₀ : d.held db [])
    (hR : ∀ {t born tr rows}, Timeline.Commits R t → tr.In born t → d.held t.now tr.tx.writes →
      d.Publishes t.now tr rows → rows ≠ [] → R t rows)
    (h : Run E body ok (World.start (.start db)) w) : Timeline.Commits R w.timeline := by
  induction h with
  | refl => exact Timeline.commits_start _ _
  | @step w w' a hrun ha hs ih =>
      have hw : w.Orderly d := Run.orderly d hbody (t := .start db) h₀ hrun
      rcases World.step_cases hs with ⟨c, -, rfl⟩ | ⟨i, env, s, c, k, -, hi, hk, hb, -, rfl⟩
      · exact ih
      · have hsm := List.mem_of_getElem? hi
        obtain ⟨tr, htx, hin, hallowed⟩ := hw.sends hsm hk
        show Timeline.Commits R (w.timeline.publish (w.batch E i env))
        cases hrows : w.batch E i env with
        | nil => exact ih
        | cons r rows =>
            have hpublish : (E.step c env w.timeline.now tr.tx).publish = r :: rows := by
              rw [htx, ← hb, hrows]
            refine Timeline.commits_commit ih
              (hR ih hin (htx ▸ hw.held s hsm) ?_ (List.cons_ne_nil _ _))
            rw [← hpublish]
            exact Discipline.publishes hallowed (hpublish ▸ List.cons_ne_nil _ _)

/-- What holds at the start and is kept by every commit of the log holds at every moment of a
run. -/
theorem Timeline.forall_le {db : D} {t : Timeline D Row} {P : D → Prop}
    {R : Timeline D Row → List Row → Prop} (h : .start db ≤ t) (h₀ : P db)
    (hR : ∀ u rows, R u rows → P u.now → P (u.commit rows).now) (hc : Timeline.Commits R t) :
    ∀ u ≤ t, P u.now := by
  induction h with
  | refl =>
      intro u hu
      rw [Timeline.le_start_iff.mp hu]
      exact h₀
  | @commit t' rows h ih =>
      have ih := ih fun u rows' hu => hc u rows' (Timeline.le_commit _ hu)
      intro u hu
      rcases Timeline.le_commit_iff.mp hu with rfl | hu
      · exact hR t' rows (hc t' rows (le_refl _)) (ih t' (le_refl _))
      · exact ih u hu

/-! ### Waiting -/

/-- A discipline under which the sessions wait in an order: a session whose statement clashes
with what another one holds has the lower rank. -/
structure LockOrder (E : Engine D Row Stmt Ext Env Err S X) (Call α : Type) extends
    Discipline E Call α where
  rank : List Row → Nat
  waits : ∀ {c env db tr r ws r'}, allowed c tr → held db tr.tx.writes → held db ws →
    compatible (D := D) tr.tx.writes ws = true → E.Writes env db tr.tx r c → r' ∈ ws →
    Store.clash (D := D) r r' = true → rank tr.tx.writes < rank ws

section
variable {body : Call → Prog (Command Stmt Ext) (fun c => Except Err (c.Res S X)) α}
  {w : World D Row Stmt Ext Env Err Call α S X}

/-- A session that cannot take its step waits for one of a higher rank, which has not
finished. -/
theorem World.Orderly.waits {o : LockOrder E Call α} (hw : w.Orderly o.toDiscipline) {i : Nat}
    {s : Session D Row Stmt Ext Env Err Call α S X} (hi : w.sessions[i]? = some s)
    (hf : s.prog.finished = false) {env : Env} (hstep : w.step E body (.step i env) = none) :
    ∃ s' ∈ w.sessions, s'.prog.finished = false ∧ o.rank s.tx.writes < o.rank s'.tx.writes := by
  have hsm := List.mem_of_getElem? hi
  cases hk : s.prog with
  | ret a =>
      rw [hk] at hf
      cases hf
  | call c k =>
      obtain ⟨tr, htx, -, hallowed⟩ := hw.sends hsm hk
      simp only [World.step, hi, hk] at hstep
      split at hstep
      · cases hstep
      · rename_i hu
        -- The session `s'` whose row version `r'` clashes with the row version `r`.
        rw [Bool.not_eq_true, World.unblocked, List.all_eq_false] at hu
        obtain ⟨s', hs', hc⟩ := hu
        obtain ⟨j, hne, hj⟩ := List.mem_eraseIdx_iff_getElem?.mp hs'
        have hs'm := List.mem_of_getElem? hj
        obtain ⟨r, hr, r', hr', hclash⟩ := exists_clash (Bool.not_eq_true _ ▸ hc)
        have hdis := hw.disjoint i j s s' hi hj (Ne.symm hne)
        have hnot : r ∉ s.tx.writes := by
          intro hold
          rw [(compatible_iff _ _).mp hdis r hold r' hr'] at hclash
          cases hclash
        have hwrites : E.Writes env w.db s.tx r c := by
          rcases List.mem_append.mp hr with hr | hr
          · exact (Engine.publish_cases hr).resolve_left hnot
          · obtain ⟨-, -, h⟩ := (Engine.uncommitted_cases hr).resolve_left hnot
            exact h
        refine ⟨s', hs'm, ?_, ?_⟩
        · -- A finished session holds nothing.
          cases hk' : s'.prog with
          | call c' k' => rfl
          | ret a =>
              obtain ⟨tr', htx', -, hend⟩ := hw.obeys s' hs'm
              rw [hk'] at hend
              have hnil : tr'.tx.writes = [] := hend.1
              rw [← htx', hnil] at hr'
              cases hr'
        · rw [← htx] at hdis hwrites ⊢
          exact o.waits hallowed (htx ▸ hw.held s hsm) (hw.held s' hs'm) hdis hwrites hr' hclash

/-- While some call has not finished, some call is not waiting: its next command can run in
every environment. -/
theorem World.Orderly.progress {o : LockOrder E Call α} (hw : w.Orderly o.toDiscipline)
    (hq : w.quiescent = false) :
    ∃ i, ∀ env, (w.step E body (.step i env)).isSome = true := by
  have hne : Multiset.ofList (w.sessions.filter fun s => !s.prog.finished) ≠ 0 := by
    rw [World.quiescent, List.all_eq_false] at hq
    obtain ⟨s, hs, hf⟩ := hq
    have hm : s ∈ w.sessions.filter fun s => !s.prog.finished :=
      List.mem_filter.mpr ⟨hs, by simpa using hf⟩
    exact fun h => absurd (Multiset.mem_coe.mpr hm) (h ▸ Multiset.notMem_zero s)
  -- The unfinished session of the highest rank waits for nobody.
  obtain ⟨s, hs, hmax⟩ := Multiset.exists_max_image (fun s => o.rank s.tx.writes) hne
  obtain ⟨hsm, hf⟩ := List.mem_filter.mp hs
  obtain ⟨i, hi⟩ := List.mem_iff_getElem?.mp hsm
  refine ⟨i, fun env => ?_⟩
  cases hstep : w.step E body (.step i env) with
  | some w' => rfl
  | none =>
      obtain ⟨s', hs', hf', hlt⟩ := hw.waits hi (by simpa using hf) hstep
      have := hmax s' (List.mem_filter.mpr ⟨hs', by simpa using hf'⟩)
      omega

end

end

end ReadCommitted
