import Vanguard.Library.Alone

/-!
# `Vanguard.Library.Observer`: clients that only read

A client that commits nothing and opens no transaction changes nothing for the others: it is an
observer of their timeline. `Observes E adm p t t' a` says that the program `p` begins at the
moment `t`, that each of its commands is answered at a later moment, and that the last answer is
the one of the moment `t'` and the result `a`.

`Observes.exists_of_only` says that a program of `SELECT` statements ends, whenever they are
executed. `Observes.post` is the rule for its results. A triple of `Engine.rely`, which is about a
client among others, holds of everything that an observer can see.
-/

set_option autoImplicit false

namespace ReadCommitted

variable {D Row Stmt Ext Env Err α : Type} {S : Stmt → Type} {X : Ext → Type} [Store D Row]

/-- The program reads from the moment `t` to the moment `t'`, and its result is `a`. -/
inductive Observes (E : Engine D Row Stmt Ext Env Err S X) (adm : Env → Prop) :
    Prog (Command Stmt Ext) (fun c => Except Err (c.Res S X)) α → Timeline D Row →
      Timeline D Row → α → Prop where
  | ret (a : α) (t : Timeline D Row) : Observes E adm (.ret a) t t a
  | call {c : Command Stmt Ext} {k : Except Err (c.Res S X) →
        Prog (Command Stmt Ext) (fun c => Except Err (c.Res S X)) α}
      {t u t' : Timeline D Row} {a : α} {r : Except Err (c.Res S X)} (env : Env)
      (hle : t ≤ u) (hadm : adm env) (hstep : E.step c env u.now .idle = ⟨[], .idle, r⟩)
      (hrest : Observes E adm (k r) u t' a) : Observes E adm (.call c k) t t' a

/-- A `SELECT` on the pool changes nothing, and has an answer. -/
theorem Engine.step_of_reads {E : Engine D Row Stmt Ext Env Err S X} {q : Stmt} (h : E.Reads q)
    (env : Env) (db : D) : ∃ r, E.step (.pool q) env db .idle = ⟨[], .idle, r⟩ := by
  simp only [Engine.step, Engine.autocommit]
  cases E.fault env with
  | some e => exact ⟨.error e, rfl⟩
  | none =>
      dsimp only
      cases hx : E.exec q env env db with
      | error e => exact ⟨.error e, rfl⟩
      | ok r =>
          obtain ⟨rows, ans⟩ := r
          obtain rfl : rows = [] := h env db _ hx
          exact ⟨.ok ans, rfl⟩

/-- A client without uncommitted row versions is in nobody's way. -/
theorem Quiet.of_le {t t' : Timeline D Row} (h : t ≤ t') : Quiet ([] : List Row) t t' := by
  induction h with
  | refl => exact Quiet.refl
  | commit rows _ ih => exact Quiet.commit rows ih (by simp [compatible])

namespace Observes

variable {E : Engine D Row Stmt Ext Env Err S X} {adm : Env → Prop}
  {p : Prog (Command Stmt Ext) (fun c => Except Err (c.Res S X)) α} {t t' : Timeline D Row}
  {a : α}

/-- What a triple says of a client among others holds of an observer. -/
theorem post {guar : Timeline D Row → Timeline D Row → List Row → Prop}
    {seen : Option (Timeline D Row)} {Q : α → View D Row Env → Prop}
    (h : Observes E adm p t t' a)
    (hp : p.wp (E.rely Interference.concurrent adm guar) ⟨t, seen, .idle⟩ Q) :
    ∃ seen', Q a ⟨t', seen', .idle⟩ := by
  induction h generalizing seen with
  | ret a t => exact ⟨seen, hp⟩
  | @call c k t u t' a r env hle hadm hstep _ ih =>
      -- The others commit from `t` to `u`. The command itself commits nothing.
      obtain ⟨-, hrest⟩ := hp u env (Quiet.of_le hle) hadm
      rw [hstep] at hrest
      exact ih hrest

/-- A program of `SELECT` statements ends, whenever the statements are executed. -/
theorem exists_of_only (hp : p.Only fun c => ∃ q, c = .pool q ∧ E.Reads q)
    (moments : Nat → Timeline D Row) (hle : ∀ n, moments n ≤ moments (n + 1)) (envs : Nat → Env)
    (hadm : ∀ n, adm (envs n)) : ∃ n a, Observes E adm p (moments 0) (moments n) a := by
  induction p generalizing moments envs with
  | ret a => exact ⟨0, a, Observes.ret a _⟩
  | call c k ih =>
      obtain ⟨⟨q, rfl, hq⟩, hrest⟩ := hp
      -- The statement is executed at the second moment, the rest of the program after it.
      obtain ⟨r, hstep⟩ := Engine.step_of_reads hq (envs 0) (moments 1).now
      obtain ⟨n, a, hobs⟩ := ih r (hrest r) (fun n => moments (n + 1)) (fun n => hle (n + 1))
        (fun n => envs (n + 1)) (fun n => hadm (n + 1))
      exact ⟨n + 1, a, Observes.call (envs 0) (hle 0) (hadm 0) hstep hobs⟩

end Observes

end ReadCommitted
