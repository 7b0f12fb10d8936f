import Vanguard.Services.Access

/-!
# `Vanguard.Services.Idempotency`: the guard of repeated `POST` requests

`services/middleware/idempotency.ts`, `core/repositories/idempotency.repository.ts` and the
table of `V003__idempotency_keys.sql`.

A `GuardSession` is one request inside `handleIdempotency`: the scope of its key and the
statement, the wait or the handler that it has reached (`Phase`). Each statement of the
repository is one step, so the steps of concurrent requests interleave in a `GuardWorld`. The
answer of a handler is one step, and the write of `markCompleted` or `markFailed`, which no
request waits for, is a later one.

`Body` are the JSON values: `JSON.stringify` and the `JSONB` column keep a body as a JSON
value. The foreign key of `org_id` holds for the organisation of a token.
-/

set_option autoImplicit false

namespace Vanguard

open ReadCommitted

/-! ### The key store -/

/-- The columns of `uq_idempotency_key_org_path`. -/
structure KeyScope where
  idempotencyKey : String
  orgId : Uuid
  requestPath : String
  deriving DecidableEq

/-- The `status` of a key. -/
inductive KeyStatus where
  | processing
  | completed
  | failed
  deriving DecidableEq

/-- `IdempotencyRecord`. -/
structure IdempotencyRecord (Body : Type) where
  scope : KeyScope
  status : KeyStatus
  responseStatus : Option Nat
  responseBody : Option Body
  expiresAt : Timestamp
  createdAt : Timestamp
  updatedAt : Timestamp
  deriving DecidableEq

/-- The table `idempotency_keys`. -/
abbrev KeyTable (Body : Type) :=
  Table (IdempotencyRecord Body) KeyScope IdempotencyRecord.scope

variable {Body : Type}

namespace KeyTable

/-- `INTERVAL '24 hours'`. -/
def lifetime : Timestamp := 24 * 60 * 60 * 1000

/-- The `INSERT` of `tryInsert`: the new row, or `none` on the unique violation. -/
def insertKey (keys : KeyTable Body) (scope : KeyScope) (now : Timestamp) :
    Option (IdempotencyRecord Body) :=
  if (keys.get? scope).isSome then none
  else
    some
      { scope := scope
        status := .processing
        responseStatus := none
        responseBody := none
        expiresAt := now + lifetime
        createdAt := now
        updatedAt := now }

/-- The `SELECT` of `tryInsert`. -/
def selectKey (keys : KeyTable Body) (scope : KeyScope) : Option (IdempotencyRecord Body) :=
  keys.get? scope

/-- The `UPDATE` of the row of a scope, if there is one. -/
def update (keys : KeyTable Body) (scope : KeyScope)
    (f : IdempotencyRecord Body → IdempotencyRecord Body) : KeyTable Body :=
  match keys.get? scope with
  | some r => keys.put { f r with scope := r.scope }
  | none => keys

/-- `markCompleted`. -/
def markCompleted (keys : KeyTable Body) (scope : KeyScope) (responseStatus : Nat)
    (responseBody : Body) (now : Timestamp) : KeyTable Body :=
  update keys scope fun r =>
    { r with
        status := .completed
        responseStatus := some responseStatus
        responseBody := some responseBody
        updatedAt := now }

/-- `markFailed`. -/
def markFailed (keys : KeyTable Body) (scope : KeyScope) (now : Timestamp) : KeyTable Body :=
  update keys scope fun r => { r with status := .failed, updatedAt := now }

/-- `deleteKey`. -/
def deleteKey (keys : KeyTable Body) (scope : KeyScope) : KeyTable Body := keys.erase scope

/-! Each statement reads and writes the row of its own scope. -/

/-- An INSERT that succeeds finds no row of the scope, and stores one that is being
processed. -/
theorem insertKey_eq_some {keys : KeyTable Body} {scope : KeyScope} {now : Timestamp}
    {r : IdempotencyRecord Body} (h : keys.insertKey scope now = some r) :
    keys.get? scope = none ∧ r.scope = scope ∧ r.status = .processing := by
  rw [insertKey] at h
  split at h
  · cases h
  · rename_i hnone
    cases h
    exact ⟨Option.not_isSome_iff_eq_none.mp hnone, rfl, rfl⟩

/-- An INSERT succeeds where the scope has no row. -/
theorem insertKey_of_none {keys : KeyTable Body} {scope : KeyScope} (now : Timestamp)
    (h : keys.get? scope = none) : (keys.insertKey scope now).isSome := by
  simp [insertKey, h]

/-- An INSERT fails exactly where the scope has a row. -/
theorem insertKey_eq_none_iff {keys : KeyTable Body} {scope : KeyScope} {now : Timestamp} :
    keys.insertKey scope now = none ↔ (keys.get? scope).isSome = true := by
  rw [insertKey]
  split
  · rename_i hsome
    exact iff_of_true rfl hsome
  · rename_i hnone
    exact iff_of_false (Option.some_ne_none _) hnone

/-- An update of a scope changes its row, if it has one, and keeps the scope. -/
theorem get?_update (keys : KeyTable Body) (scope : KeyScope)
    (f : IdempotencyRecord Body → IdempotencyRecord Body) :
    (keys.update scope f).get? scope =
      (keys.get? scope).map fun r => { f r with scope := r.scope } := by
  rw [update]
  cases hr : keys.get? scope with
  | none => exact hr
  | some r => rw [Table.get?_put, if_pos (Table.key_of_get? hr), Option.map_some]

/-- An update of a scope leaves the other scopes alone. -/
theorem get?_update_ne (keys : KeyTable Body) {scope k : KeyScope} (h : scope ≠ k)
    (f : IdempotencyRecord Body → IdempotencyRecord Body) :
    (keys.update scope f).get? k = keys.get? k := by
  rw [update]
  cases hr : keys.get? scope with
  | none => rfl
  | some r =>
      have hk : r.scope ≠ k := by
        rw [Table.key_of_get? hr]
        exact h
      exact Table.get?_put_ne keys _ hk

/-- The row after `markCompleted`. -/
theorem get?_markCompleted {keys : KeyTable Body} {scope : KeyScope}
    {r : IdempotencyRecord Body} (h : keys.get? scope = some r) (status : Nat) (body : Body)
    (now : Timestamp) :
    (keys.markCompleted scope status body now).get? scope =
      some
        { r with
            status := .completed
            responseStatus := some status
            responseBody := some body
            updatedAt := now } := by
  rw [markCompleted, get?_update, h, Option.map_some]

/-- The row after `markFailed`. -/
theorem get?_markFailed {keys : KeyTable Body} {scope : KeyScope} {r : IdempotencyRecord Body}
    (h : keys.get? scope = some r) (now : Timestamp) :
    (keys.markFailed scope now).get? scope =
      some { r with status := .failed, updatedAt := now } := by
  rw [markFailed, get?_update, h, Option.map_some]

/-- An INSERT fails where the scope has a row. -/
theorem insertKey_of_some {keys : KeyTable Body} {scope : KeyScope} {r : IdempotencyRecord Body}
    (h : keys.get? scope = some r) (now : Timestamp) : keys.insertKey scope now = none := by
  rw [insertKey, h]
  rfl

end KeyTable

/-! ### The middleware -/

/-- What `idempotencyGuard` reads of a request. -/
structure GuardedRequest where
  method : String
  idempotencyKey : Option HeaderValue
  user : Option JwtPayload
  path : String

/-- The start of `idempotencyGuard`: the scope of the key, `none` when it calls `next()` at
once, or its answer. -/
def idempotencyGuard (req : GuardedRequest) : Except HttpAnswer (Option KeyScope) :=
  if req.method ≠ "POST" then .ok none
  else
    match req.idempotencyKey with
    | some (.one key) =>
      -- The empty string is falsy.
      if key = "" then .ok none
      else
        match req.user with
        | none =>
          .error ⟨401, some "UNAUTHENTICATED",
            "Authentication required for idempotent requests"⟩
        | some user => .ok (some ⟨key, user.sub, req.path⟩)
    | _ => .ok none

/-- `PROCESSING_TIMEOUT_MS`. -/
def processingTimeoutMs : Timestamp := 30000

/-- `POLL_INTERVAL_MS`. -/
def pollIntervalMs : Timestamp := 500

/-- How a request ends: with the answer of its handler, with the cached response, with a
refusal of the guard, or with an error that goes to `errorHandler`. -/
inductive Outcome (Body : Type) where
  | answered (status : Nat) (body : Body)
  | replayed (status : Nat) (body : Option Body)
  | refused (answer : HttpAnswer)
  | crashed (err : JsError)
  deriving DecidableEq

/-- Where a request is in `handleIdempotency`.

- `insert`, `select`: the statements of the first `tryInsert`;
- `delete`, `reinsert`, `reselect`: `deleteKey` and the second `tryInsert`, in the branch of
  `FAILED`;
- `executing`: the handler runs, `retry` in the branch of `FAILED`;
- `marking`: the handler has answered and the statement that records it is under way;
- `sleeping`, `pollInsert`, `pollSelect`: the poll loop, with its deadline. -/
inductive Phase (Body : Type) where
  | insert
  | select
  | delete
  | reinsert
  | reselect
  | executing (retry : Bool)
  | marking (status : Nat) (body : Body)
  | sleeping (deadline wake : Timestamp)
  | pollInsert (deadline : Timestamp)
  | pollSelect (deadline : Timestamp)
  | done (outcome : Outcome Body)
  deriving DecidableEq

/-- `statusCode >= 200 && statusCode < 300`. -/
def success (status : Nat) : Bool := 200 ≤ status && status < 300

/-- The test of the poll loop. -/
def pollLoop (deadline now : Timestamp) : Phase Body :=
  if now < deadline then .sleeping deadline (now + pollIntervalMs)
  else
    .done (.refused ⟨409, some "CONCURRENT_REQUEST_TIMEOUT",
      "A request with this Idempotency-Key is still being processed. " ++
        "Retry after 30 seconds or use a new key."⟩)

/-- The answer from the cache. -/
def cachedResponse (record : IdempotencyRecord Body) : Phase Body :=
  .done (.replayed (record.responseStatus.getD 200) record.responseBody)

/-- After the first `tryInsert` with `isNew = false`. -/
def onExisting (now : Timestamp) : Option (IdempotencyRecord Body) → Phase Body
  -- `record.status` of `undefined`
  | none => .done (.crashed (.typeError "status"))
  | some record =>
    match record.status with
    | .completed => cachedResponse record
    | .failed => .delete
    | .processing => pollLoop (now + processingTimeoutMs) now

/-- After a `tryInsert` of the poll loop, which does not read `isNew`. -/
def onPolled (deadline now : Timestamp) : Option (IdempotencyRecord Body) → Phase Body
  | none => .done (.crashed (.typeError "status"))
  | some polled =>
    match polled.status with
    | .completed => cachedResponse polled
    | .failed =>
      .done (.refused ⟨409, some "IDEMPOTENT_REQUEST_FAILED",
        "The original request failed. Retry with a new Idempotency-Key."⟩)
    | .processing => pollLoop deadline now

/-- The wrapper of `res.json`: the handler has answered. The one of the `FAILED` branch
records no failure. -/
def onAnswer (retry : Bool) (status : Nat) (body : Body) : Phase Body :=
  if success status || !retry then .marking status body
  else .done (.answered status body)

/-- The next statement of a request, or the end of its sleep. -/
def Phase.next (scope : KeyScope) (now : Timestamp) (keys : KeyTable Body) :
    Phase Body → Phase Body × KeyTable Body
  | .insert =>
    match keys.insertKey scope now with
    | some record => (.executing false, keys.put record)
    | none => (.select, keys)
  | .select => (onExisting now (keys.selectKey scope), keys)
  | .delete => (.reinsert, keys.deleteKey scope)
  | .reinsert =>
    match keys.insertKey scope now with
    | some record => (.executing true, keys.put record)
    | none => (.reselect, keys)
  | .reselect => (.executing true, keys)
  | .executing retry => (.executing retry, keys)
  | .marking status body =>
    (.done (.answered status body),
      if success status then keys.markCompleted scope status body now
      else keys.markFailed scope now)
  | .sleeping deadline wake =>
    (if wake ≤ now then .pollInsert deadline else .sleeping deadline wake, keys)
  | .pollInsert deadline =>
    match keys.insertKey scope now with
    | some record => (onPolled deadline now (some record), keys.put record)
    | none => (.pollSelect deadline, keys)
  | .pollSelect deadline => (onPolled deadline now (keys.selectKey scope), keys)
  | .done outcome => (.done outcome, keys)

/-- A statement that fails. The request waits for no write of `marking`, whose error is
logged. -/
def Phase.fail : Phase Body → Phase Body
  | .executing retry => .executing retry
  | .marking status body => .done (.answered status body)
  | .sleeping deadline wake => .sleeping deadline wake
  | .done outcome => .done outcome
  | .insert | .select | .delete | .reinsert | .reselect | .pollInsert _ | .pollSelect _ =>
    .done (.crashed (.pg .connectionFailure))

/-! ### Interleavings -/

/-- A request inside `handleIdempotency`. -/
structure GuardSession (Body : Type) where
  scope : KeyScope
  phase : Phase Body
  deriving DecidableEq

/-- The key store and the requests that have reached it. -/
structure GuardWorld (Body : Type) where
  keys : KeyTable Body
  sessions : List (GuardSession Body)

/-- What can happen next: a request arrives, the request `i` takes its next step, or its
handler answers. -/
inductive GuardAction (Body : Type) where
  | arrive (req : GuardedRequest)
  | step (i : Nat) (env : Env)
  | answer (i : Nat) (status : Nat) (body : Body)

namespace GuardWorld

/-- No request has arrived. -/
def start (keys : KeyTable Body) : GuardWorld Body := ⟨keys, []⟩

/-- The request `i` moves to a phase. -/
def moveTo (w : GuardWorld Body) (i : Nat) (s : GuardSession Body) (phase : Phase Body)
    (keys : KeyTable Body) : GuardWorld Body :=
  ⟨keys, w.sessions.set i { s with phase := phase }⟩

/-- One action. -/
def step (w : GuardWorld Body) : GuardAction Body → GuardWorld Body
  | .arrive req =>
    match idempotencyGuard req with
    | .ok (some scope) => ⟨w.keys, w.sessions ++ [⟨scope, .insert⟩]⟩
    | _ => w
  | .step i env =>
    match w.sessions[i]? with
    | some s =>
      if env.fault then w.moveTo i s s.phase.fail w.keys
      else w.moveTo i s (s.phase.next s.scope env.now w.keys).1
        (s.phase.next s.scope env.now w.keys).2
    | none => w
  | .answer i status body =>
    match w.sessions[i]? with
    | some ⟨scope, .executing retry⟩ =>
      w.moveTo i ⟨scope, .executing retry⟩ (onAnswer retry status body) w.keys
    | _ => w

/-- The world after some actions. -/
def run (w : GuardWorld Body) : List (GuardAction Body) → GuardWorld Body
  | [] => w
  | a :: rest => (w.step a).run rest

/-- Each action of the run is one that `ok` allows where it happens. -/
def Allows (ok : GuardWorld Body → GuardAction Body → Prop) (w : GuardWorld Body) :
    List (GuardAction Body) → Prop
  | [] => True
  | a :: rest => ok w a ∧ (w.step a).Allows ok rest

/-- A condition on steps that can be decided can be decided of a run. -/
instance decidableAllows (ok : GuardWorld Body → GuardAction Body → Prop)
    [∀ w a, Decidable (ok w a)] (w : GuardWorld Body) (actions : List (GuardAction Body)) :
    Decidable (w.Allows ok actions) :=
  match actions with
  | [] => inferInstanceAs (Decidable True)
  | a :: rest =>
    have := decidableAllows ok (w.step a) rest
    inferInstanceAs (Decidable (ok w a ∧ (w.step a).Allows ok rest))

/-- What every allowed action preserves holds after every run of them. -/
theorem run_invariant {ok : GuardWorld Body → GuardAction Body → Prop}
    {Inv : GuardWorld Body → Prop} (hstep : ∀ w a, ok w a → Inv w → Inv (w.step a))
    {w : GuardWorld Body} (hw : Inv w) {actions : List (GuardAction Body)}
    (hok : w.Allows ok actions) : Inv (w.run actions) := by
  induction actions generalizing w with
  | nil => exact hw
  | cons a rest ih => exact ih (hstep w a hok.1 hw) hok.2

/-- Actions in two parts are run one after the other. -/
theorem run_append (w : GuardWorld Body) (first rest : List (GuardAction Body)) :
    w.run (first ++ rest) = (w.run first).run rest := by
  induction first generalizing w with
  | nil => rfl
  | cons a first ih => exact ih (w.step a)

/-- A run in two parts is allowed if both parts are. -/
theorem allows_append {ok : GuardWorld Body → GuardAction Body → Prop} (w : GuardWorld Body)
    (first rest : List (GuardAction Body)) :
    w.Allows ok (first ++ rest) ↔ w.Allows ok first ∧ (w.run first).Allows ok rest := by
  induction first generalizing w with
  | nil => simp only [List.nil_append, Allows, run, true_and]
  | cons a first ih => simp only [List.cons_append, Allows, run, ih, and_assoc]

/-- What an action can do: nothing, add a request, or move one. -/
inductive Stepped (w : GuardWorld Body) : GuardAction Body → GuardWorld Body → Prop where
  | idle {a : GuardAction Body} : Stepped w a w
  | arrive {req : GuardedRequest} {scope : KeyScope}
      (hguard : idempotencyGuard req = .ok (some scope)) :
      Stepped w (.arrive req) ⟨w.keys, w.sessions ++ [⟨scope, .insert⟩]⟩
  | fail {i : Nat} {env : Env} {s : GuardSession Body} (hi : w.sessions[i]? = some s)
      (hfault : env.fault = true) : Stepped w (.step i env) (w.moveTo i s s.phase.fail w.keys)
  | next {i : Nat} {env : Env} {s : GuardSession Body} (hi : w.sessions[i]? = some s)
      (hfault : env.fault = false) :
      Stepped w (.step i env) (w.moveTo i s (s.phase.next s.scope env.now w.keys).1
        (s.phase.next s.scope env.now w.keys).2)
  | answer {i status : Nat} {body : Body} {scope : KeyScope} {retry : Bool}
      (hi : w.sessions[i]? = some ⟨scope, .executing retry⟩) :
      Stepped w (.answer i status body)
        (w.moveTo i ⟨scope, .executing retry⟩ (onAnswer retry status body) w.keys)

/-- Every action is one of the listed steps. -/
theorem stepped (w : GuardWorld Body) (a : GuardAction Body) : Stepped w a (w.step a) := by
  cases a with
  | arrive req =>
      simp only [step]
      split
      · rename_i scope hguard
        exact .arrive hguard
      · exact .idle
  | step i env =>
      simp only [step]
      split
      · rename_i s hi
        split
        · rename_i hfault
          exact .fail hi hfault
        · rename_i hfault
          exact .next hi (Bool.eq_false_of_not_eq_true hfault)
      · exact .idle
  | answer i status body =>
      simp only [step]
      split
      · rename_i scope retry hi
        exact .answer hi
      · exact .idle

end GuardWorld

/-- A statement of one scope leaves the rows of the others. -/
theorem Phase.next_get?_ne {scope k : KeyScope} (h : scope ≠ k) (now : Timestamp)
    (keys : KeyTable Body) (phase : Phase Body) :
    (phase.next scope now keys).2.get? k = keys.get? k := by
  have hput : ∀ r, keys.insertKey scope now = some r → (keys.put r).get? k = keys.get? k := by
    intro r hr
    have hr := (KeyTable.insertKey_eq_some hr).2.1
    exact Table.get?_put_ne keys r (hr ▸ h)
  cases phase with
  | insert | reinsert | pollInsert =>
      simp only [next]
      split
      · rename_i r hr
        exact hput r hr
      · rfl
  | delete => exact Table.get?_erase_ne keys h
  | marking status body =>
      simp only [next]
      split
      · exact KeyTable.get?_update_ne keys h _
      · exact KeyTable.get?_update_ne keys h _
  | select | reselect | executing | sleeping | pollSelect | done => rfl

end Vanguard
