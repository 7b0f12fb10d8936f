import Vanguard.Library.Timeline
import Vanguard.Library.Program
import Mathlib.Data.List.Basic

/-!
# `Vanguard.Library.Sessions`: concurrent programs over a READ COMMITTED store

An `Engine` gives the statements of a store their meaning on one database: the row
versions a statement writes and the rows it answers. This module lifts that meaning to
many programs that run at the same time, statement by statement:

* `Tx` is the transaction of one session. An open transaction keeps its own row versions
  to itself. Each of its statements sees the committed database of that moment with these
  row versions on top, which is READ COMMITTED.
* `Engine.step` is one command of one session. `COMMIT` publishes the row versions at
  once, an error inside a transaction discards them, and a statement on another
  connection (`Command.pool`) commits at once.
* `World.step` interleaves the sessions. A command that writes a row version which
  clashes with an uncommitted one of another session is not enabled. This is the row lock
  and the wait on a unique key: the command runs after the other transaction ends.
* `Run` is a sequence of such steps, each allowed by a predicate `ok`.

Two fields of `Session` are history variables that no step reads: `born` is the timeline
at the start of the call and `seen` the timeline at its first command.
-/

set_option autoImplicit false

namespace ReadCommitted

/-- The commands of a program: the transaction commands and the statements on its own
connection, statements on another connection of the pool, and calls that do not touch the
store. -/
inductive Command (Stmt Ext : Type) where
  | begin
  | commit
  | rollback
  | client (q : Stmt)
  | pool (q : Stmt)
  | ext (e : Ext)

/-- What a command answers. -/
def Command.Res {Stmt Ext : Type} (S : Stmt → Type) (X : Ext → Type) :
    Command Stmt Ext → Type
  | begin | commit | rollback => Unit
  | client q | pool q => S q
  | ext e => X e

/-- The transaction of a session. An active one keeps the environment of its `BEGIN` and
its uncommitted row versions, oldest first. A failed one waits for its `ROLLBACK`. -/
inductive Tx (Env Row : Type) where
  | idle
  | active (start : Env) (writes : List Row)
  | failed

/-- The uncommitted row versions of a transaction. -/
def Tx.writes {Env Row : Type} : Tx Env Row → List Row
  | active _ ws => ws
  | idle | failed => []

/-- The meaning of the statements of a store on one database.

- `exec q start env db`: the statement `q` in a transaction begun at `start`, run at `env`
  on `db`. It answers the new row versions and its rows, or fails;
- `ext`: a call that does not touch the store;
- `fault`: the failure that the environment injects into a command, if any;
- `aborted`: the error of a statement in a failed transaction. -/
structure Engine (D Row Stmt Ext Env Err : Type) (S : Stmt → Type) (X : Ext → Type) where
  exec : (q : Stmt) → (start env : Env) → D → Except Err (List Row × S q)
  ext : (e : Ext) → Env → Except Err (X e)
  fault : Env → Option Err
  aborted : Err

/-- What one command does: the batch it commits, the transaction after it, its answer. -/
structure Outcome (Env Row Err A : Type) where
  publish : List Row
  tx : Tx Env Row
  answer : Except Err A

section
variable {D Row Stmt Ext Env Err : Type} {S : Stmt → Type} {X : Ext → Type} [Store D Row]

namespace Engine

/-- A statement on a connection without a transaction: it commits at once. -/
def autocommit (E : Engine D Row Stmt Ext Env Err S X) (q : Stmt) (env : Env) (db : D)
    (tx : Tx Env Row) : Outcome Env Row Err (S q) :=
  match E.fault env with
  | some e => ⟨[], tx, .error e⟩
  | none =>
    match E.exec q env env db with
    | .ok (rows, answer) => ⟨rows, tx, .ok answer⟩
    | .error e => ⟨[], tx, .error e⟩

/-- One command of a session with the transaction `tx`, at the committed database `db`. -/
def step (E : Engine D Row Stmt Ext Env Err S X) :
    (c : Command Stmt Ext) → Env → D → Tx Env Row → Outcome Env Row Err (c.Res S X)
  | .begin, env, _, tx =>
    match E.fault env with
    | some e => ⟨[], tx, .error e⟩
    | none =>
      match tx with
      -- A second `BEGIN` is only a warning.
      | .active start ws => ⟨[], .active start ws, .ok ()⟩
      | .idle | .failed => ⟨[], .active env [], .ok ()⟩
  | .commit, env, _, tx =>
    match E.fault env, tx with
    | some e, _ => ⟨[], .idle, .error e⟩
    | none, .active _ ws => ⟨ws, .idle, .ok ()⟩
    -- `COMMIT` without a transaction is a warning, of a failed one a rollback.
    | none, .idle | none, .failed => ⟨[], .idle, .ok ()⟩
  | .rollback, env, _, _ =>
    match E.fault env with
    | some e => ⟨[], .idle, .error e⟩
    | none => ⟨[], .idle, .ok ()⟩
  | .client q, env, db, tx =>
    match tx with
    | .failed => ⟨[], .failed, .error E.aborted⟩
    | .idle => E.autocommit q env db .idle
    | .active start ws =>
      match E.fault env with
      | some e => ⟨[], .failed, .error e⟩
      | none =>
        match E.exec q start env (writeAll db ws) with
        | .ok (rows, answer) => ⟨[], .active start (ws ++ rows), .ok answer⟩
        | .error e => ⟨[], .failed, .error e⟩
  | .pool q, env, db, tx => E.autocommit q env db tx
  | .ext e, env, _, tx => ⟨[], tx, E.ext e env⟩

/-- A program that runs alone, its commands in the given environments. -/
def eval {α : Type} (E : Engine D Row Stmt Ext Env Err S X) :
    Prog (Command Stmt Ext) (fun c => Except Err (c.Res S X)) α → (Nat → Env) →
      Timeline D Row → Tx Env Row → α × Timeline D Row × Tx Env Row
  | .ret a, _, t, tx => (a, t, tx)
  | .call c k, envs, t, tx =>
    let o := E.step c (envs 0) t.now tx
    E.eval (k o.answer) (fun n => envs (n + 1)) (t.publish o.publish) o.tx

end Engine

/-- One call in progress: its remaining program and its transaction. -/
structure Session (D Row Stmt Ext Env Err Call α : Type) (S : Stmt → Type)
    (X : Ext → Type) where
  call : Call
  born : Timeline D Row
  seen : Option (Timeline D Row)
  tx : Tx Env Row
  prog : Prog (Command Stmt Ext) (fun c => Except Err (c.Res S X)) α

/-- The committed log and the calls, started and finished. -/
structure World (D Row Stmt Ext Env Err Call α : Type) (S : Stmt → Type)
    (X : Ext → Type) where
  timeline : Timeline D Row
  sessions : List (Session D Row Stmt Ext Env Err Call α S X)

/-- A call starts, or the session `i` runs its next command. -/
inductive Action (Call Env : Type) where
  | spawn (c : Call)
  | step (i : Nat) (env : Env)

namespace World

variable {Call α : Type}

/-- The committed database. -/
def db (w : World D Row Stmt Ext Env Err Call α S X) : D := w.timeline.now

/-- A world with no calls. -/
def start (t : Timeline D Row) : World D Row Stmt Ext Env Err Call α S X := ⟨t, []⟩

/-- Every call has finished. -/
def quiescent (w : World D Row Stmt Ext Env Err Call α S X) : Bool :=
  w.sessions.all fun s => s.prog.finished

/-- The rows are compatible with what every session but `i` holds uncommitted. -/
def unblocked (w : World D Row Stmt Ext Env Err Call α S X) (i : Nat) (rows : List Row) :
    Bool :=
  (w.sessions.eraseIdx i).all fun s => compatible (D := D) rows s.tx.writes

/-- One step of the world, `none` when the action is not enabled. -/
def step (E : Engine D Row Stmt Ext Env Err S X)
    (body : Call → Prog (Command Stmt Ext) (fun c => Except Err (c.Res S X)) α)
    (w : World D Row Stmt Ext Env Err Call α S X) :
    Action Call Env → Option (World D Row Stmt Ext Env Err Call α S X)
  | .spawn c =>
    some { w with sessions := w.sessions ++ [⟨c, w.timeline, none, .idle, body c⟩] }
  | .step i env =>
    match w.sessions[i]? with
    | none => none
    | some s =>
      match s.prog with
      | .ret _ => none
      | .call c k =>
        let o := E.step c env w.timeline.now s.tx
        if w.unblocked i (o.publish ++ o.tx.writes) then
          some
            { timeline := w.timeline.publish o.publish
              sessions := w.sessions.set i
                { s with
                    seen := some (s.seen.getD w.timeline)
                    tx := o.tx
                    prog := k o.answer } }
        else none

/-- The world after a list of actions, when each is enabled and passes the check `p`. -/
def exec (E : Engine D Row Stmt Ext Env Err S X)
    (body : Call → Prog (Command Stmt Ext) (fun c => Except Err (c.Res S X)) α)
    (p : World D Row Stmt Ext Env Err Call α S X → Action Call Env → Bool) :
    World D Row Stmt Ext Env Err Call α S X → List (Action Call Env) →
      Option (World D Row Stmt Ext Env Err Call α S X)
  | w, [] => some w
  | w, a :: as => if p w a then (w.step E body a).bind fun w' => w'.exec E body p as else none

end World

section
variable {Call α : Type} {E : Engine D Row Stmt Ext Env Err S X}
  {body : Call → Prog (Command Stmt Ext) (fun c => Except Err (c.Res S X)) α}

/-- The step of the last session, when no other one holds uncommitted rows. -/
theorem World.step_last {t : Timeline D Row}
    {done : List (Session D Row Stmt Ext Env Err Call α S X)}
    (hdone : ∀ s ∈ done, s.tx.writes = []) {s : Session D Row Stmt Ext Env Err Call α S X}
    {c : Command Stmt Ext} {k : Except Err (c.Res S X) →
      Prog (Command Stmt Ext) (fun c => Except Err (c.Res S X)) α} (hk : s.prog = .call c k)
    {env : Env} {rows : List Row} {tx : Tx Env Row} {answer : Except Err (c.Res S X)}
    (ho : E.step c env t.now s.tx = ⟨rows, tx, answer⟩) :
    World.step E body ⟨t, done ++ [s]⟩ (.step done.length env) =
      some ⟨t.publish rows,
        done ++ [{ s with seen := some (s.seen.getD t), tx := tx, prog := k answer }]⟩ := by
  have hi : (done ++ [s])[done.length]? = some s := by simp
  simp only [World.step, hi, hk, ho]
  rw [if_pos]
  · simp
  · rw [World.unblocked, List.all_eq_true]
    intro s' hs'
    have hmem : s' ∈ done := by simpa [List.eraseIdx_append_of_length_le] using hs'
    simp [hdone s' hmem, compatible]

end

/-- The worlds reached from `w₀` by steps that `ok` allows. -/
inductive Run {Call α : Type} (E : Engine D Row Stmt Ext Env Err S X)
    (body : Call → Prog (Command Stmt Ext) (fun c => Except Err (c.Res S X)) α)
    (ok : World D Row Stmt Ext Env Err Call α S X → Action Call Env → Prop)
    (w₀ : World D Row Stmt Ext Env Err Call α S X) :
    World D Row Stmt Ext Env Err Call α S X → Prop where
  | refl : Run E body ok w₀ w₀
  | step {w w' : World D Row Stmt Ext Env Err Call α S X} (a : Action Call Env) :
      Run E body ok w₀ w → ok w a → w.step E body a = some w' → Run E body ok w₀ w'

namespace Run

variable {Call α : Type} {E : Engine D Row Stmt Ext Env Err S X}
  {body : Call → Prog (Command Stmt Ext) (fun c => Except Err (c.Res S X)) α}
  {ok : World D Row Stmt Ext Env Err Call α S X → Action Call Env → Prop}
  {w₀ w w' : World D Row Stmt Ext Env Err Call α S X}

/-- Runs compose. -/
theorem trans (h : Run E body ok w₀ w) (h' : Run E body ok w w') : Run E body ok w₀ w' := by
  induction h' with
  | refl => exact h
  | step a _ hok hs ih => exact Run.step a ih hok hs

/-- A list of actions that executes is a run. -/
theorem of_exec
    {p : World D Row Stmt Ext Env Err Call α S X → Action Call Env → Bool}
    (hok : ∀ w a, p w a = true → ok w a) {as : List (Action Call Env)}
    (h : w₀.exec E body p as = some w) : Run E body ok w₀ w := by
  induction as generalizing w₀ with
  | nil =>
      cases h
      exact refl
  | cons a as ih =>
      rw [World.exec] at h
      split at h
      · rename_i hp
        obtain ⟨w₁, h₁, h⟩ := Option.bind_eq_some_iff.mp h
        exact (step a refl (hok _ _ hp) h₁).trans (ih h)
      · cases h

end Run

end

end ReadCommitted
