import Vanguard.Proofs.OneExecution
import Vanguard.Services.KeyStore

/-!
# `Vanguard.Proofs.KeyRaces`: `tryInsert` against `deleteKey`

`tryInsert` sends its `SELECT` after the `INSERT` has met the unique violation. In between,
the guard of another request may delete the row. Then `tryInsert` resolves with the record
`undefined`, and a poll that comes to its `INSERT` stores a row that no handler owns.

The repository is looked at alone: `KeyMemory` are the history variables of a call, the rows it
has committed and the scope of a unique violation that it has not looked up yet.
`tryInsert_yields` says what a call resolves with in the runs that delete no such scope
(`UndisturbedKeyStep`). `guard_undisturbed` is the same for the requests of the guard.
`tryInsert_race_free` puts both together, and `tryInsert_race` is the race.
-/

set_option autoImplicit false

namespace Vanguard

open ReadCommitted

variable {Body : Type}

/-! ### The repository -/

/-- The rows that a call has committed, and the scope of its unique violation until the
`SELECT`. -/
structure KeyMemory (Body : Type) where
  rows : List (KeyRow Body)
  conflict : Option KeyScope

/-- The scope of an `INSERT` that meets the unique violation. -/
def conflictOf : (c : KeyCmd Body) → Except JsError (c.Res KeySql.Rows fun _ => Unit) →
    Option KeyScope
  | .pool (.insertKey scope), .error (.pg (.uniqueViolation _)) => some scope
  | _, _ => none

/-- The history variables of a call. -/
def keyMemory : History (KeyTable Body) (KeyRow Body) (KeySql Body) Empty Env JsError KeySql.Rows
    (fun _ => Unit) (KeyMemory Body) where
  start := ⟨[], none⟩
  next c _ _ o m := ⟨m.rows ++ o.publish, conflictOf c o.answer⟩

/-- The runs of the repository from the table `keys`. -/
abbrev KeyRuns (ok : KeyWorld Body → (Nat → KeyMemory Body) → KeyStep Body → Prop)
    (keys : KeyTable Body) : KeyWorld Body → (Nat → KeyMemory Body) → Prop :=
  HistoryRun keyPostgres (fun c => c.body.run) keyMemory ok (World.start (.start keys))

/-- What a `tryInsert` that started at `born` promises when it has resolved at `time` and has
committed `rows`: a record that was in the table in between, and `isNew` if it is its own. -/
def Yields (scope : KeyScope) (born time : Timeline (KeyTable Body) (KeyRow Body))
    (rows : List (KeyRow Body)) (r : TryInsertResult Body) : Prop :=
  ∃ record moment, r.record = some record ∧ born ≤ moment ∧ moment ≤ time ∧
    moment.now.get? scope = some record ∧ (r.isNew = true ↔ .put record ∈ rows)

/-- No step deletes the row of a scope while a call is between the unique violation of the
scope and its `SELECT`. -/
def UndisturbedKeyStep (w : KeyWorld Body) (ms : Nat → KeyMemory Body) (a : KeyStep Body) :
    Prop :=
  ∀ i env scope, a = .step i env → .erase scope ∈ w.batch keyPostgres i env →
    ∀ j < w.sessions.length, (ms j).conflict ≠ some scope

/-- What a call may use before a command: the row of its unique violation is still there. -/
def keyOwn (_ : KeyCmd Body) (_ : Env) (m : KeyMemory Body)
    (t : Timeline (KeyTable Body) (KeyRow Body)) : Prop :=
  ∀ scope, m.conflict = some scope → (t.now.get? scope).isSome = true

/-- The predicate transformer of the repository. Nothing is asked of what it commits. -/
abbrev keyRecall (c : KeyCmd Body) (r : Recollection (KeyTable Body) (KeyRow Body) Env
      (KeyMemory Body))
    (K : Recollection (KeyTable Body) (KeyRow Body) Env (KeyMemory Body) →
      Except JsError (c.Res KeySql.Rows fun _ => Unit) → Prop) : Prop :=
  keyPostgres.recall keyMemory Interference.concurrent keyOwn (fun _ _ _ _ => True) c r K

/-- The outcome of a statement on the pool. -/
theorem step_pool (q : KeySql Body) (env : Env) (keys : KeyTable Body)
    (tx : Tx Env (KeyRow Body)) :
    keyPostgres.step (.pool q) env keys tx =
      if env.fault then ⟨[], tx, .error (.pg .connectionFailure)⟩
      else match q.exec env keys with
        | .ok (rows, ans) => ⟨rows, tx, .ok ans⟩
        | .error e => ⟨[], tx, .error (.pg e)⟩ := by
  simp only [Engine.step, Engine.autocommit, keyPostgres]
  cases env.fault with
  | true => rfl
  | false =>
      simp only [Bool.false_eq_true, if_false]
      cases q.exec env keys <;> rfl

/-- A statement on the pool: it commits its rows, it breaks a constraint, or it fails. -/
theorem wp_keyQuery {q : KeySql Body} {v : View (KeyTable Body) (KeyRow Body) Env}
    {m : KeyMemory Body}
    {Q : Except JsError q.Rows →
      Recollection (KeyTable Body) (KeyRow Body) Env (KeyMemory Body) → Prop}
    (hok : ∀ t env rows ans seen, v.time ≤ t → keyOwn (.pool q) env m t →
      q.exec env t.now = .ok (rows, ans) →
      Q (.ok ans)
        ⟨⟨t.publish rows, seen, v.tx⟩, ⟨m.rows ++ rows, conflictOf (.pool q) (.ok ans)⟩⟩)
    (herr : ∀ t env e seen, v.time ≤ t → q.exec env t.now = .error e →
      Q (.error (.pg e)) ⟨⟨t, seen, v.tx⟩, ⟨m.rows, conflictOf (.pool q) (.error (.pg e))⟩⟩)
    (hfault : ∀ v', Q (.error (.pg .connectionFailure)) ⟨v', ⟨m.rows, none⟩⟩) :
    Await.wp keyRecall (keyQuery q) ⟨v, m⟩ Q := by
  intro t env hrel hown
  refine ⟨fun _ => trivial, ?_⟩
  show Q (keyPostgres.step (.pool q) env t.now v.tx).answer
    ⟨⟨t.publish (keyPostgres.step (.pool q) env t.now v.tx).publish, _,
        (keyPostgres.step (.pool q) env t.now v.tx).tx⟩,
      ⟨m.rows ++ (keyPostgres.step (.pool q) env t.now v.tx).publish,
        conflictOf (.pool q) (keyPostgres.step (.pool q) env t.now v.tx).answer⟩⟩
  rw [step_pool]
  have hle := Interference.le _ hrel
  cases env.fault with
  | true =>
      have hnone : conflictOf (.pool q) (.error (.pg .connectionFailure)) = none := by
        cases q <;> rfl
      simp only [if_true, List.append_nil, hnone]
      exact hfault _
  | false =>
      simp only [Bool.false_eq_true, if_false]
      cases hx : q.exec env t.now with
      | error e =>
          simp only [List.append_nil]
          exact herr t env e _ hle hx
      | ok r => exact hok t env r.1 r.2 _ hle hown hx

/-- What `tryInsert` resolves with. -/
theorem tryInsert_spec (scope : KeyScope) (born : Timeline (KeyTable Body) (KeyRow Body)) :
    Await.wp keyRecall (IdempotencyRepository.tryInsert scope) ⟨⟨born, none, .idle⟩, ⟨[], none⟩⟩
      fun r m => ∀ result, r = .ok result →
        Yields scope born m.view.time m.history.rows result := by
  simp only [IdempotencyRepository.tryInsert, Await.wp_tryCatch, Await.wp_bind]
  refine wp_keyQuery (fun t env rows ans seen ht _ hx => ?_) (fun t env e seen ht hx => ?_)
    fun v' => ?_
  · -- The `INSERT` has stored its row.
    simp only [KeySql.exec] at hx
    cases hr : t.now.insertKey scope env.now with
    | none =>
        rw [hr] at hx
        cases hx
    | some record =>
        rw [hr] at hx
        cases hx
        obtain ⟨-, hscope, -⟩ := KeyTable.insertKey_eq_some hr
        intro result hresult
        cases hresult
        refine ⟨record, t.publish [.put record], rfl, Timeline.le_publish _ ht, le_refl _, ?_, ?_⟩
        · show (t.now.put record).get? scope = some record
          rw [Table.get?_put, if_pos hscope]
        · simp
  · -- The unique violation: the row is there, and still is when the `SELECT` runs.
    have he : e = .uniqueViolation "uq_idempotency_key_org_path" := by
      simp only [KeySql.exec] at hx
      cases hr : t.now.insertKey scope env.now with
      | none =>
          rw [hr] at hx
          exact (Except.error.inj hx).symm
      | some record =>
          rw [hr] at hx
          cases hx
    subst he
    have hcode : (JsError.pg (.uniqueViolation "uq_idempotency_key_org_path")).code? =
        some "23505" := rfl
    dsimp only
    rw [if_pos hcode, Await.wp_bind]
    refine wp_keyQuery (fun t' env' rows ans seen' ht' hown hx' => ?_)
      (fun t' env' e' seen' _ hx' => ?_) fun v' result hresult => ?_
    · cases hx'
      obtain ⟨record, hrecord⟩ := Option.isSome_iff_exists.mp (hown scope rfl)
      intro result hresult
      cases hresult
      refine ⟨record, t', ?_, le_trans ht ht', le_refl _, hrecord, ?_⟩
      · show ((t'.now.selectKey scope).toList).head? = some record
        rw [KeyTable.selectKey, hrecord]
        rfl
      · simp
    · cases hx'
    · cases hresult
  · -- The connection has failed.
    dsimp only
    rw [if_neg (by decide)]
    intro result hresult
    cases hresult

/-- A `tryInsert` yields a record of its scope that was in the table during the call. -/
theorem keyCall_spec (c : KeyCall Body) (born : Timeline (KeyTable Body) (KeyRow Body)) :
    c.body.run.wp keyRecall ⟨⟨born, none, .idle⟩, ⟨[], none⟩⟩ fun r m =>
      ∀ scope result, c = .tryInsert scope → r = .ok (some result) →
        Yields scope born m.view.time m.history.rows result := by
  cases c with
  | tryInsert scope =>
      show Await.wp keyRecall (do let r ← IdempotencyRepository.tryInsert scope; pure (some r)) _ _
      rw [Await.wp_bind]
      refine Await.wp_mono Engine.recall_mono (tryInsert_spec scope born) fun r m hr => ?_
      cases r with
      | ok result =>
          rintro scope' result' hscope hresult
          cases hscope
          cases hresult
          exact hr result rfl
      | error e =>
          rintro scope' result' - hresult
          cases hresult
  | markCompleted | markFailed | deleteKey =>
      refine Prog.wp_mono Engine.recall_mono (recall_trivial fun _ _ => trivial) fun _ _ _ => ?_
      rintro scope result hscope
      cases hscope

/-- A row outlives writes that do not delete it. -/
theorem KeyTable.isSome_writeAll {keys : KeyTable Body} {scope : KeyScope}
    (h : (keys.get? scope).isSome = true) {rows : List (KeyRow Body)}
    (hrows : .erase scope ∉ rows) : ((writeAll keys rows).get? scope).isSome = true := by
  induction rows generalizing keys with
  | nil => exact h
  | cons row rows ih =>
      refine ih ?_ fun hm => hrows (List.mem_cons_of_mem _ hm)
      cases row with
      | put r =>
          show ((keys.put r).get? scope).isSome = true
          rw [Table.get?_put]
          split
          · rfl
          · exact h
      | erase scope' =>
          have hne : scope' ≠ scope := by
            rintro rfl
            exact hrows List.mem_cons_self
          show ((keys.erase scope').get? scope).isSome = true
          rw [Table.get?_erase_ne keys hne]
          exact h

/-- A unique violation finds the row of its scope, and nothing is written. -/
theorem conflictOf_step {c : KeyCmd Body} {env : Env} {keys : KeyTable Body}
    {tx : Tx Env (KeyRow Body)} {scope : KeyScope}
    (h : conflictOf c (keyPostgres.step c env keys tx).answer = some scope) :
    (keyPostgres.step c env keys tx).publish = [] ∧ (keys.get? scope).isSome = true := by
  have hinsert : c = .pool (.insertKey scope) := by
    generalize (keyPostgres.step c env keys tx).answer = answer at h
    unfold conflictOf at h
    split at h
    · cases h
      rfl
    · cases h
  subst hinsert
  have hstep := step_pool (.insertKey scope) env keys tx
  cases hf : env.fault with
  | true =>
      rw [if_pos hf] at hstep
      rw [hstep] at h
      cases h
  | false =>
      rw [if_neg (by simp [hf])] at hstep
      cases hr : keys.insertKey scope env.now with
      | some r =>
          simp only [KeySql.exec, hr] at hstep
          rw [hstep] at h
          cases h
      | none =>
          simp only [KeySql.exec, hr] at hstep
          rw [hstep]
          exact ⟨rfl, KeyTable.insertKey_eq_none_iff.mp hr⟩

/-- The row of every unique violation that waits for its `SELECT` is there. -/
def ConflictsKept (w : KeyWorld Body) (ms : Nat → KeyMemory Body) : Prop :=
  ∀ j scope, (ms j).conflict = some scope → (w.db.get? scope).isSome = true

/-- An undisturbed step keeps the rows that waiting calls will look up. -/
theorem ConflictsKept.step {keys : KeyTable Body}
    {ok : KeyWorld Body → (Nat → KeyMemory Body) → KeyStep Body → Prop} {w w' : KeyWorld Body}
    {ms : Nat → KeyMemory Body} {a : KeyStep Body} (hrun : KeyRuns ok keys w ms)
    (h : ConflictsKept w ms) (hok : UndisturbedKeyStep w ms a)
    (hstep : w.step keyPostgres (fun c => c.body.run) a = some w') :
    ConflictsKept w' (w.record keyPostgres keyMemory ms a) := by
  rcases World.step_cases hstep with ⟨c, rfl, rfl⟩ | ⟨i, env, s, c, k, rfl, hi, hk, hb, -, rfl⟩
  · exact h
  · intro j scope hj
    show ((w.timeline.publish (w.batch keyPostgres i env)).now.get? scope).isSome = true
    rw [Timeline.now_publish]
    by_cases hji : j = i
    · -- The call of this step: its `INSERT` has found the row.
      subst hji
      rw [World.record_step hi hk, Function.update_self] at hj
      obtain ⟨hnone, hsome⟩ := conflictOf_step hj
      rw [hb, hnone]
      exact hsome
    · rw [World.record_ne hji] at hj
      refine KeyTable.isSome_writeAll (h j scope hj) fun hm => ?_
      -- The history of a call that has not started is empty.
      have hlt : j < w.sessions.length := by
        by_contra hge
        rw [hrun.fresh (List.getElem?_eq_none (Nat.le_of_not_lt hge))] at hj
        cases hj
      exact hok i env scope rfl hm j hlt hj

/-- In a run that deletes no row between an `INSERT` and its `SELECT`, every `tryInsert` that has
resolved has kept its promise. -/
theorem tryInsert_yields {keys : KeyTable Body} {w : KeyWorld Body}
    {ms : Nat → KeyMemory Body} (h : KeyRuns UndisturbedKeyStep keys w ms) {i : Nat} {s : _}
    (hs : w.sessions[i]? = some s) {scope : KeyScope} (hcall : s.call = .tryInsert scope)
    {result : TryInsertResult Body} (hr : s.prog = .ret (.ok (some result))) :
    Yields scope s.born w.timeline (ms i).rows result := by
  obtain ⟨-, hrecalls⟩ := HistoryRun.sound (J := ConflictsKept)
    Interference.concurrent_shared (fun _ _ c _ born => keyCall_spec c born)
    (fun j scope hj => by cases hj) (fun w ms i env s c k hJ _ _ _ scope hm => hJ i scope hm)
    (fun w ms a w' hrun hJ hok hstep _ => hJ.step hrun hok hstep) h
  obtain ⟨t, hle, hpost⟩ := hrecalls.ended hs hr
  obtain ⟨record, moment, hrecord, hborn, hmoment, hget, hnew⟩ := hpost scope result hcall rfl
  exact ⟨record, moment, hrecord, hborn, le_trans hmoment hle, hget, hnew⟩

/-! ### The guard -/

/-- The next statement of the request looks up a row that it knows to be there. -/
def Phase.looksUp : Phase Body → Bool
  | select | pollInsert _ | pollSelect _ => true
  | _ => false

/-- The request ends its sleep, and polls. -/
def Phase.wakes (now : Timestamp) : Phase Body → Bool
  | sleeping _ wake => wake ≤ now
  | _ => false

/-- A retry deletes its key while no request of the scope is about to look it up, and a poll
begins while the row is there. -/
def UndisturbedPoll (w : GuardWorld Body) : GuardAction Body → Prop
  | .step i env => ∀ s ∈ w.sessions[i]?, env.fault = false →
      (s.phase = .delete → ∀ t ∈ w.sessions, t.scope = s.scope → t.phase.looksUp = false) ∧
      (s.phase.wakes env.now = true → (w.keys.get? s.scope).isSome = true)
  | .arrive _ | .answer _ _ _ => True

/-- The condition on a step reads only the world it starts from, so it can be
decided. -/
instance [DecidableEq Body] (w : GuardWorld Body) (a : GuardAction Body) :
    Decidable (UndisturbedPoll w a) :=
  match a with
  | .step i env => inferInstanceAs (Decidable (∀ s ∈ w.sessions[i]?, env.fault = false →
      (s.phase = .delete → ∀ t ∈ w.sessions, t.scope = s.scope → t.phase.looksUp = false) ∧
      (s.phase.wakes env.now = true → (w.keys.get? s.scope).isSome = true)))
  | .arrive _ | .answer _ _ _ => inferInstanceAs (Decidable True)

/-- No request has crashed on a missing record, and the `INSERT` of a poll stores no row. -/
structure Guarded (w : GuardWorld Body) : Prop where
  noCrash : ∀ s ∈ w.sessions, ∀ property, s.phase ≠ .done (.crashed (.typeError property))
  noRow : ∀ (i : Nat) (env : Env) (s : GuardSession Body) (deadline : Timestamp),
    w.sessions[i]? = some s → s.phase = .pollInsert deadline → (w.step (.step i env)).keys = w.keys

/-- The request has not crashed, and the row that it is about to look up is there. -/
structure RowKept (keys : KeyTable Body) (s : GuardSession Body) : Prop where
  row : s.phase.looksUp = true → (keys.get? s.scope).isSome = true
  noCrash : ∀ property, s.phase ≠ .done (.crashed (.typeError property))

/-- An update deletes no row. -/
theorem KeyTable.isSome_update {keys : KeyTable Body} {scope : KeyScope}
    (h : (keys.get? scope).isSome = true) (f : IdempotencyRecord Body → IdempotencyRecord Body) :
    ((keys.update scope f).get? scope).isSome = true := by
  rw [get?_update, Option.isSome_map]
  exact h

/-- Only `deleteKey` removes a row. -/
theorem Phase.isSome_next {phase : Phase Body} (hphase : phase ≠ .delete) {scope : KeyScope}
    {keys : KeyTable Body} (h : (keys.get? scope).isSome = true) (now : Timestamp) :
    ((phase.next scope now keys).2.get? scope).isSome = true := by
  cases phase with
  | delete => exact absurd rfl hphase
  | insert | reinsert | pollInsert =>
      simp only [next, KeyTable.insertKey_eq_none_iff.mpr h]
      exact h
  | marking status body =>
      simp only [next]
      split
      · exact KeyTable.isSome_update h _
      · exact KeyTable.isSome_update h _
  | select | reselect | executing | sleeping | pollSelect | done => exact h

/-- A request that looks nothing up needs no row. -/
theorem RowKept.idle {keys : KeyTable Body} {scope : KeyScope} {phase : Phase Body}
    (hnot : phase.looksUp = false)
    (hcrash : ∀ property, phase ≠ .done (.crashed (.typeError property))) :
    RowKept keys ⟨scope, phase⟩ := by
  refine ⟨fun hl => ?_, hcrash⟩
  change phase.looksUp = true at hl
  rw [hnot] at hl
  cases hl

/-- The poll loop looks nothing up before it wakes. -/
theorem RowKept.pollLoop {keys : KeyTable Body} (scope : KeyScope) (deadline now : Timestamp) :
    RowKept keys ⟨scope, Vanguard.pollLoop deadline now⟩ := by
  rw [Vanguard.pollLoop]
  split
  · exact RowKept.idle rfl fun _ h => by cases h
  · exact RowKept.idle rfl fun _ h => by cases h

/-- A lookup that finds the row does not crash. -/
theorem RowKept.onExisting {keys : KeyTable Body} (scope : KeyScope) (now : Timestamp)
    {record : Option (IdempotencyRecord Body)} (h : record.isSome = true) :
    RowKept keys ⟨scope, Vanguard.onExisting now record⟩ := by
  obtain ⟨r, rfl⟩ := Option.isSome_iff_exists.mp h
  rw [Vanguard.onExisting]
  split
  · exact RowKept.idle rfl fun _ h => by cases h
  · exact RowKept.idle rfl fun _ h => by cases h
  · exact RowKept.pollLoop scope _ _

/-- A poll that found a record goes on without looking it up at once. -/
theorem RowKept.onPolled {keys : KeyTable Body} (scope : KeyScope) (deadline now : Timestamp)
    {record : Option (IdempotencyRecord Body)} (h : record.isSome = true) :
    RowKept keys ⟨scope, Vanguard.onPolled deadline now record⟩ := by
  obtain ⟨r, rfl⟩ := Option.isSome_iff_exists.mp h
  rw [Vanguard.onPolled]
  split
  · exact RowKept.idle rfl fun _ h => by cases h
  · exact RowKept.idle rfl fun _ h => by cases h
  · exact RowKept.pollLoop scope _ _

/-- The next statement of a request whose row is there. -/
theorem RowKept.next {keys : KeyTable Body} {s : GuardSession Body} (h : RowKept keys s)
    {now : Timestamp} (hwakes : s.phase.wakes now = true → (keys.get? s.scope).isSome = true) :
    RowKept (s.phase.next s.scope now keys).2
      { s with phase := (s.phase.next s.scope now keys).1 } := by
  obtain ⟨scope, phase⟩ := s
  obtain ⟨hrow, hcrash⟩ := h
  dsimp only at hrow hcrash hwakes ⊢
  cases phase with
  | insert =>
      simp only [Phase.next]
      cases hr : keys.insertKey scope now with
      | some r => exact RowKept.idle rfl fun _ h => by cases h
      | none =>
          -- The unique violation.
          exact ⟨fun _ => KeyTable.insertKey_eq_none_iff.mp hr, fun _ h => by cases h⟩
  | reinsert =>
      simp only [Phase.next]
      split
      · exact RowKept.idle rfl fun _ h => by cases h
      · exact RowKept.idle rfl fun _ h => by cases h
  | pollInsert deadline =>
      simp only [Phase.next, KeyTable.insertKey_eq_none_iff.mpr (hrow rfl)]
      exact ⟨fun _ => hrow rfl, fun _ h => by cases h⟩
  | sleeping deadline wake =>
      simp only [Phase.next]
      split
      · rename_i hwake
        exact ⟨fun _ => hwakes (decide_eq_true hwake), fun _ h => by cases h⟩
      · exact RowKept.idle rfl fun _ h => by cases h
  | select => exact RowKept.onExisting scope now (hrow rfl)
  | pollSelect deadline => exact RowKept.onPolled scope deadline now (hrow rfl)
  | delete | reselect | executing | marking => exact RowKept.idle rfl fun _ h => by cases h
  | done outcome => exact RowKept.idle rfl hcrash

/-- A failed statement looks nothing up. -/
theorem RowKept.fail {keys : KeyTable Body} {s : GuardSession Body} (h : RowKept keys s) :
    RowKept keys { s with phase := s.phase.fail } := by
  obtain ⟨scope, phase⟩ := s
  cases phase with
  | executing | sleeping | done => exact h
  | _ => exact RowKept.idle rfl fun _ h => by cases h

/-- An answer looks nothing up. -/
theorem RowKept.answer {keys : KeyTable Body} (scope : KeyScope) (retry : Bool) (status : Nat)
    (body : Body) : RowKept keys ⟨scope, onAnswer retry status body⟩ := by
  rw [onAnswer]
  split
  · exact RowKept.idle rfl fun _ h => by cases h
  · exact RowKept.idle rfl fun _ h => by cases h

/-- The rows of all requests are kept. -/
def RowsKept (w : GuardWorld Body) : Prop := ∀ s ∈ w.sessions, RowKept w.keys s

/-- One request moves, and the table keeps the rows of the others. -/
theorem RowsKept.moveTo {w : GuardWorld Body} (h : RowsKept w) {i : Nat} {s : GuardSession Body}
    {phase : Phase Body} {keys : KeyTable Body} (hs : RowKept keys { s with phase := phase })
    (hothers : ∀ t ∈ w.sessions, t.phase.looksUp = true → (w.keys.get? t.scope).isSome = true →
      (keys.get? t.scope).isSome = true) :
    RowsKept (w.moveTo i s phase keys) := by
  intro t ht
  obtain ⟨j, hj⟩ := List.mem_iff_getElem?.mp ht
  rcases GuardWorld.moveTo_cases hj with ⟨-, rfl⟩ | ⟨-, hold⟩
  · exact hs
  · have hmem := List.mem_of_getElem? hold
    exact ⟨fun hl => hothers t hmem hl ((h t hmem).row hl), (h t hmem).noCrash⟩

/-- An undisturbed step keeps the rows of all requests. -/
theorem RowsKept.step {w : GuardWorld Body} (h : RowsKept w) {a : GuardAction Body}
    (hok : UndisturbedPoll w a) : RowsKept (w.step a) := by
  have hstep := w.stepped a
  generalize w.step a = w' at hstep ⊢
  cases hstep with
  | idle => exact h
  | arrive hguard =>
      intro t ht
      rcases List.mem_append.mp ht with hold | hnew
      · exact h t hold
      · obtain rfl := List.mem_singleton.mp hnew
        exact RowKept.idle rfl fun _ h => by cases h
  | fail hi hfault =>
      exact h.moveTo (h _ (List.mem_of_getElem? hi)).fail fun _ _ _ hrow => hrow
  | @next i env s hi hfault =>
      obtain ⟨hdelete, hwakes⟩ := hok s hi hfault
      refine h.moveTo ((h s (List.mem_of_getElem? hi)).next hwakes) fun t ht hl hrow => ?_
      by_cases hscope : s.scope = t.scope
      · rw [hscope]
        refine Phase.isSome_next (fun hphase => ?_) hrow env.now
        rw [hdelete hphase t ht hscope.symm] at hl
        cases hl
      · rw [Phase.next_get?_ne hscope]
        exact hrow
  | answer hi => exact h.moveTo (RowKept.answer _ _ _ _) fun _ _ _ hrow => hrow

/-- Kept rows guard the world. -/
theorem RowsKept.guarded {w : GuardWorld Body} (h : RowsKept w) : Guarded w where
  noCrash s hs := (h s hs).noCrash
  noRow := by
    intro i env s deadline hi hphase
    simp only [GuardWorld.step, hi]
    split
    · rfl
    · have hrow := (h s (List.mem_of_getElem? hi)).row (by rw [hphase]; rfl)
      show (s.phase.next s.scope env.now w.keys).2 = w.keys
      rw [hphase]
      simp only [Phase.next, KeyTable.insertKey_eq_none_iff.mpr hrow]

/-- In a run of the guard that disturbs no lookup, no request crashes, and no poll stores a
row. -/
theorem guard_undisturbed {keys : KeyTable Body} {actions : List (GuardAction Body)}
    (h : (GuardWorld.start keys).Allows UndisturbedPoll actions) :
    Guarded ((GuardWorld.start keys).run actions) := by
  refine RowsKept.guarded (GuardWorld.run_invariant (fun _ _ hok h => h.step hok) ?_ h)
  intro s hs
  cases hs

/-! ### The result -/

/-- `tryInsert` keeps its promise, and the guard does not fail on a missing record and stores
no row in a poll, in the runs in which no `deleteKey` comes between a unique violation and the
`SELECT` of the same scope, and every poll begins and ends while the row is there. -/
theorem tryInsert_race_free :
    (∀ (keys : KeyTable Body) (w : KeyWorld Body) (ms : Nat → KeyMemory Body),
      KeyRuns UndisturbedKeyStep keys w ms → ∀ (i : Nat) s scope result,
        w.sessions[i]? = some s → s.call = .tryInsert scope → s.prog = .ret (.ok (some result)) →
          Yields scope s.born w.timeline (ms i).rows result) ∧
    ∀ (keys : KeyTable Body) (actions : List (GuardAction Body)),
      (GuardWorld.start keys).Allows UndisturbedPoll actions →
        Guarded ((GuardWorld.start keys).run actions) :=
  ⟨fun _ _ _ h _ _ _ _ hs hcall hr => tryInsert_yields h hs hcall hr,
    fun _ _ h => guard_undisturbed h⟩

/-! ### Sample runs -/

/-- The key of a request whose handler has failed. -/
def sampleFailedKey : IdempotencyRecord String :=
  { scope := sampleScope
    status := .failed
    responseStatus := none
    responseBody := none
    expiresAt := KeyTable.lifetime
    createdAt := 0
    updatedAt := 0 }

/-- The table with the failed row of the sample scope. -/
def sampleKeys : KeyTable String := Table.empty.put sampleFailedKey

/-- The world and the histories after a list of calls and steps, when each passes the check. -/
def keyPlay (p : KeyWorld String → (Nat → KeyMemory String) → KeyStep String → Bool)
    (as : List (KeyStep String)) : Option (KeyWorld String × (Nat → KeyMemory String)) :=
  World.execRecorded keyPostgres (fun c : KeyCall String => c.body.run) keyMemory p
    (World.start (.start sampleKeys)) (fun _ => ⟨[], none⟩) as

/-- A check that is enough for `UndisturbedKeyStep`. -/
def undisturbedKeyCheck (w : KeyWorld String) (ms : Nat → KeyMemory String) :
    KeyStep String → Bool
  | .spawn _ => true
  | .step i env => (w.batch keyPostgres i env).all fun
    | .put _ => true
    | .erase scope => (List.range w.sessions.length).all fun j => (ms j).conflict != some scope

/-- A step that passes `undisturbedKeyCheck` meets `UndisturbedKeyStep`. -/
theorem undisturbedKeyStep_of_check (w : KeyWorld String) (ms : Nat → KeyMemory String)
    (a : KeyStep String) (h : undisturbedKeyCheck w ms a = true) : UndisturbedKeyStep w ms a := by
  rintro i env scope rfl herase j hj hconflict
  have hrow := List.all_eq_true.mp h _ herase
  have hne := List.all_eq_true.mp hrow j (List.mem_range.mpr hj)
  rw [hconflict] at hne
  simp at hne

/-- What the call `i` has resolved with. -/
def KeyWorld.result (w : KeyWorld String) (i : Nat) : Option (TryInsertResult String) :=
  (w.sessions[i]?).bind fun s =>
    match s.call, s.prog with
    | .tryInsert _, .ret (.ok r) => r
    | _, _ => none

/-- A result is that of a resolved `tryInsert`. -/
theorem KeyWorld.result_some {w : KeyWorld String} {i : Nat} {result : TryInsertResult String}
    (h : w.result i = some result) :
    ∃ s scope, w.sessions[i]? = some s ∧ s.call = .tryInsert scope ∧
      s.prog = .ret (.ok (some result)) := by
  obtain ⟨s, hs, h⟩ := Option.bind_eq_some_iff.mp h
  split at h
  · rename_i scope r hcall hprog
    subst h
    exact ⟨s, scope, hs, hcall, hprog⟩
  · cases h

/-- A call that looks up the failed key, `deleteKey`, and a call that inserts the key again. -/
def sampleKeyCalls : List (KeyStep String) :=
  [.spawn (.tryInsert sampleScope), .spawn (.deleteKey sampleScope), .step 0 sampleEnv,
    .step 0 sampleEnv, .step 1 sampleEnv, .spawn (.tryInsert sampleScope), .step 2 sampleEnv]

/-- The first request fails while the second one polls. The third one retries before the
second one wakes. -/
def samplePoll : List (GuardAction String) :=
  [.arrive sampleGuarded, guardStep 0, .arrive sampleGuarded, guardStep 1, guardStep 1,
    .answer 0 500 "error", guardStep 0, .arrive sampleGuarded, guardStep 2, guardStep 2,
    guardStep 2, guardStep 2, .step 1 { sampleEnv with now := 501 }, guardStep 1, guardStep 1]

/-- Both halves in a run: a retry that reads the failed row, and a poll with its row
kept. -/
theorem race_free_of_samplePoll :
    (∃ (w : KeyWorld String) (ms : Nat → KeyMemory String),
      KeyRuns UndisturbedKeyStep sampleKeys w ms ∧
        w.result 0 = some ⟨some sampleFailedKey, false⟩ ∧
        ∃ s, w.sessions[0]? = some s ∧
          Yields sampleScope s.born w.timeline (ms 0).rows ⟨some sampleFailedKey, false⟩) ∧
    (GuardWorld.start Table.empty).Allows UndisturbedPoll samplePoll ∧
      Guarded ((GuardWorld.start Table.empty).run samplePoll) := by
  constructor
  · have h : (keyPlay undisturbedKeyCheck sampleKeyCalls).map (fun r => KeyWorld.result r.1 0) =
        some (some ⟨some sampleFailedKey, false⟩) := by
      decide +kernel
    obtain ⟨⟨w, ms⟩, hw, hresult⟩ := Option.map_eq_some_iff.mp h
    have hrun : KeyRuns UndisturbedKeyStep sampleKeys w ms :=
      HistoryRun.of_exec undisturbedKeyStep_of_check .refl hw
    obtain ⟨s, scope, hs, hcall, hprog⟩ := KeyWorld.result_some hresult
    have hyields := tryInsert_race_free.1 sampleKeys w ms hrun 0 s scope _ hs hcall hprog
    refine ⟨w, ms, hrun, hresult, s, hs, ?_⟩
    obtain ⟨record, moment, hrecord, hborn, hle, hget, hnew⟩ := hyields
    cases hrecord
    -- The record says the scope of the call.
    have hscope : sampleFailedKey.scope = scope := Table.key_of_get? hget
    obtain rfl : sampleScope = scope := hscope
    exact ⟨_, moment, rfl, hborn, hle, hget, hnew⟩
  · have hallows : (GuardWorld.start Table.empty).Allows UndisturbedPoll samplePoll := by decide
    exact ⟨hallows, tryInsert_race_free.2 _ _ hallows⟩

/-- `deleteKey` comes between the unique violation and the `SELECT` of a call. -/
def sampleKeyRace : List (KeyStep String) :=
  [.spawn (.tryInsert sampleScope), .spawn (.deleteKey sampleScope), .step 0 sampleEnv,
    .step 1 sampleEnv, .step 0 sampleEnv]

/-- Two retries of a failed key. The first one deletes it before the `SELECT` of the second. -/
def sampleCrash : List (GuardAction String) :=
  sampleFailure ++
    [.arrive sampleGuarded, guardStep 1, guardStep 1, .arrive sampleGuarded, guardStep 2,
      guardStep 1, guardStep 2]

/-- The retry of the third request deletes the key when the second one has woken up. -/
def samplePollRow : List (GuardAction String) :=
  [.arrive sampleGuarded, guardStep 0, .arrive sampleGuarded, guardStep 1, guardStep 1,
    .answer 0 500 "error", guardStep 0, .arrive sampleGuarded, guardStep 2, guardStep 2,
    .step 1 { sampleEnv with now := 501 }, guardStep 2, guardStep 1]

/-- `tryInsert` resolves with no record, a request crashes on it, and a poll leaves a
`PROCESSING` row while no handler of the scope runs. -/
theorem tryInsert_race :
    (∃ (w : KeyWorld String) (ms : Nat → KeyMemory String) (s : _) (scope : KeyScope)
        (result : TryInsertResult String),
      KeyRuns (fun _ _ _ => True) sampleKeys w ms ∧ w.sessions[0]? = some s ∧
        s.call = .tryInsert scope ∧ s.prog = .ret (.ok (some result)) ∧
        ¬ Yields scope s.born w.timeline (ms 0).rows result) ∧
    ¬ Guarded ((GuardWorld.start Table.empty).run sampleCrash) ∧
    ((((GuardWorld.start Table.empty).run samplePollRow).keys.get? sampleScope).map
        (·.status) = some .processing ∧
      ∀ s ∈ ((GuardWorld.start Table.empty).run samplePollRow).sessions,
        s.phase.holds = false) := by
  refine ⟨?_, fun h => ?_, by decide⟩
  · have h : (keyPlay (fun _ _ _ => true) sampleKeyRace).map (fun r => KeyWorld.result r.1 0) =
        some (some ⟨none, false⟩) := by
      decide +kernel
    obtain ⟨⟨w, ms⟩, hw, hresult⟩ := Option.map_eq_some_iff.mp h
    obtain ⟨s, scope, hs, hcall, hprog⟩ := KeyWorld.result_some hresult
    refine ⟨w, ms, s, scope, _, HistoryRun.of_exec (fun _ _ _ _ => trivial) .refl hw, hs, hcall,
      hprog, ?_⟩
    rintro ⟨record, moment, hrecord, -⟩
    cases hrecord
  · have hmem : (⟨sampleScope, .done (.crashed (.typeError "status"))⟩ : GuardSession String) ∈
        ((GuardWorld.start Table.empty).run sampleCrash).sessions := by
      decide
    exact h.noCrash _ hmem _ rfl

end Vanguard
