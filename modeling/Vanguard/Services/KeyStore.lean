import Vanguard.Services.Idempotency
import Vanguard.Library.History

/-!
# `Vanguard.Services.KeyStore`: the statements of the idempotency repository

`core/repositories/idempotency.repository.ts` on the engine of the sessions: each method is a
program whose statements run one after the other on the pool, so that the calls of concurrent
requests interleave between them. `tryInsert` is an `INSERT` and, on the unique violation, a
`SELECT`. The methods read and write the table by the functions of
`Vanguard.Services.Idempotency` (`exec_writes`).
-/

set_option autoImplicit false

namespace Vanguard

open ReadCommitted

variable {Body : Type}

/-! ### The statements -/

/-- What a statement writes: a version of a row, or the deletion of one. -/
inductive KeyRow (Body : Type) where
  | put (r : IdempotencyRecord Body)
  | erase (scope : KeyScope)
  deriving DecidableEq

/-- The scope that a row version is about. -/
def KeyRow.scope : KeyRow Body → KeyScope
  | put r => r.scope
  | erase scope => scope

/-- The table with one more row version. -/
def KeyTable.write (keys : KeyTable Body) : KeyRow Body → KeyTable Body
  | .put r => keys.put r
  | .erase scope => keys.erase scope

/-- The table of the keys is a store of rows. -/
instance : Store (KeyTable Body) (KeyRow Body) where
  write := KeyTable.write
  clash a b := a.scope == b.scope

/-- The statements, with their parameters. -/
inductive KeySql (Body : Type) where
  | insertKey (scope : KeyScope)
  | selectKey (scope : KeyScope)
  | updateCompleted (scope : KeyScope) (responseStatus : Nat) (responseBody : Body)
  | updateFailed (scope : KeyScope)
  | deleteKey (scope : KeyScope)

/-- The rows that a statement answers. -/
abbrev KeySql.Rows : KeySql Body → Type
  | insertKey _ | selectKey _ => List (IdempotencyRecord Body)
  | updateCompleted _ _ _ | updateFailed _ | deleteKey _ => Unit

/-- The version that an `UPDATE` writes of the row of a scope, if there is one. -/
def KeyTable.updateRows (keys : KeyTable Body) (scope : KeyScope)
    (f : IdempotencyRecord Body → IdempotencyRecord Body) : List (KeyRow Body) :=
  match keys.get? scope with
  | some r => [.put { f r with scope := r.scope }]
  | none => []

/-- One statement on one table. -/
def KeySql.exec : (q : KeySql Body) → (env : Env) → KeyTable Body →
    Except PgError (List (KeyRow Body) × q.Rows)
  | .insertKey scope, env, keys =>
    match keys.insertKey scope env.now with
    | some r => .ok ([.put r], [r])
    | none => .error (.uniqueViolation "uq_idempotency_key_org_path")
  | .selectKey scope, _, keys => .ok ([], (keys.selectKey scope).toList)
  | .updateCompleted scope responseStatus responseBody, env, keys =>
    .ok (keys.updateRows scope fun r =>
      { r with
          status := .completed
          responseStatus := some responseStatus
          responseBody := some responseBody
          updatedAt := env.now }, ())
  | .updateFailed scope, env, keys =>
    .ok (keys.updateRows scope fun r => { r with status := .failed, updatedAt := env.now }, ())
  | .deleteKey scope, _, _ => .ok ([.erase scope], ())

/-- The table after an `UPDATE`. -/
theorem KeyTable.writeAll_updateRows (keys : KeyTable Body) (scope : KeyScope)
    (f : IdempotencyRecord Body → IdempotencyRecord Body) :
    writeAll keys (keys.updateRows scope f) = keys.update scope f := by
  unfold updateRows update
  cases keys.get? scope <;> rfl

/-- What the table functions of `Vanguard.Services.Idempotency` make of a statement. -/
def KeySql.apply (now : Timestamp) (keys : KeyTable Body) : KeySql Body → KeyTable Body
  | insertKey scope => ((keys.insertKey scope now).map keys.put).getD keys
  | selectKey _ => keys
  | updateCompleted scope responseStatus responseBody =>
    keys.markCompleted scope responseStatus responseBody now
  | updateFailed scope => keys.markFailed scope now
  | deleteKey scope => keys.deleteKey scope

/-- The rows that a statement writes change the table as the guard's model does. -/
theorem KeySql.exec_writes {q : KeySql Body} {env : Env} {keys : KeyTable Body}
    {rows : List (KeyRow Body)} {ans : q.Rows} (h : q.exec env keys = .ok (rows, ans)) :
    writeAll keys rows = q.apply env.now keys := by
  cases q with
  | insertKey scope =>
      simp only [exec] at h
      cases hr : keys.insertKey scope env.now with
      | some r =>
          rw [hr] at h
          cases h
          rw [apply, hr]
          rfl
      | none =>
          rw [hr] at h
          cases h
  | selectKey | deleteKey =>
      cases h
      rfl
  | updateCompleted | updateFailed =>
      have hrows := congrArg Prod.fst (Except.ok.inj h)
      dsimp only at hrows
      rw [← hrows]
      exact KeyTable.writeAll_updateRows keys _ _

/-! ### The methods -/

/-- The engine of the key store. The repository makes no other calls. -/
def keyPostgres : Engine (KeyTable Body) (KeyRow Body) (KeySql Body) Empty Env JsError
    KeySql.Rows (fun _ => Unit) where
  exec q _ env keys := (q.exec env keys).mapError .pg
  ext e := nomatch e
  fault env := if env.fault then some (.pg .connectionFailure) else none
  aborted := .pg .inFailedTransaction

/-- The commands of the repository. -/
abbrev KeyCmd (Body : Type) := Command (KeySql Body) Empty

/-- The asynchronous methods of the repository. -/
abbrev KeyAsync (Body : Type) :=
  Await (KeyCmd Body) (Command.Res KeySql.Rows fun _ => Unit) JsError

/-- `pool.query(q)`. -/
def keyQuery (q : KeySql Body) : KeyAsync Body q.Rows := Await.await (.pool q : KeyCmd Body)

/-- What `tryInsert` resolves with. `record` is `undefined` when the `SELECT` finds no row. -/
structure TryInsertResult (Body : Type) where
  record : Option (IdempotencyRecord Body)
  isNew : Bool
  deriving DecidableEq

namespace IdempotencyRepository

/-- `tryInsert`: a used key is answered by a second statement, the SELECT. -/
def tryInsert (scope : KeyScope) : KeyAsync Body (TryInsertResult Body) :=
  tryCatch (do
      let rows ← keyQuery (.insertKey scope)
      pure { record := rows.head?, isNew := true })
    fun err =>
      if err.code? = some "23505" then do
        let rows ← keyQuery (.selectKey scope)
        pure { record := rows.head?, isNew := false }
      else throw err

/-- `markCompleted`. -/
def markCompleted (scope : KeyScope) (responseStatus : Nat) (responseBody : Body) :
    KeyAsync Body Unit :=
  keyQuery (.updateCompleted scope responseStatus responseBody)

/-- `markFailed`. -/
def markFailed (scope : KeyScope) : KeyAsync Body Unit := keyQuery (.updateFailed scope)

/-- `deleteKey`. -/
def deleteKey (scope : KeyScope) : KeyAsync Body Unit := keyQuery (.deleteKey scope)

end IdempotencyRepository

/-- One call of the repository. -/
inductive KeyCall (Body : Type) where
  | tryInsert (scope : KeyScope)
  | markCompleted (scope : KeyScope) (responseStatus : Nat) (responseBody : Body)
  | markFailed (scope : KeyScope)
  | deleteKey (scope : KeyScope)

/-- The program of a call. Only `tryInsert` resolves with a value. -/
def KeyCall.body : KeyCall Body → KeyAsync Body (Option (TryInsertResult Body))
  | tryInsert scope => do
    let r ← IdempotencyRepository.tryInsert scope
    pure (some r)
  | markCompleted scope responseStatus responseBody => do
    IdempotencyRepository.markCompleted scope responseStatus responseBody
    pure none
  | markFailed scope => do
    IdempotencyRepository.markFailed scope
    pure none
  | deleteKey scope => do
    IdempotencyRepository.deleteKey scope
    pure none

/-- The table and the calls on it. -/
abbrev KeyWorld (Body : Type) :=
  ReadCommitted.World (KeyTable Body) (KeyRow Body) (KeySql Body) Empty Env JsError (KeyCall Body)
    (Except JsError (Option (TryInsertResult Body))) KeySql.Rows fun _ => Unit

/-- A step of the repository. -/
abbrev KeyStep (Body : Type) := Action (KeyCall Body) Env

end Vanguard
