import Vanguard.Library.RelyGuarantee

/-!
# `Vanguard.Library.Rules`: the proof rules of the commands

One rule for each command under `Engine.rely`. A rule has a premise for every answer of
the command, at every moment `t` that the interference allows. The premises speak of the
view after the command. Only the rules of a `COMMIT` and of a statement on the pool ask
for the guarantee, since nothing else commits.

`Injected` is a failure that an admitted environment injects. It is the only reason for
which `BEGIN`, `COMMIT` and `ROLLBACK` fail.
-/

set_option autoImplicit false

namespace ReadCommitted

variable {D Row Stmt Ext Env Err : Type} {S : Stmt → Type} {X : Ext → Type} [Store D Row]

/-- A failure that an admitted environment injects. -/
def Engine.Injected (E : Engine D Row Stmt Ext Env Err S X) (adm : Env → Prop) (e : Err) :
    Prop :=
  ∃ env, adm env ∧ E.fault env = some e

section
variable {E : Engine D Row Stmt Ext Env Err S X} {I : Interference D Row}
  {adm : Env → Prop} {guar : Timeline D Row → Timeline D Row → List Row → Prop}
  {time : Timeline D Row} {seen : Option (Timeline D Row)}

/-- `BEGIN` opens a transaction at some later moment of the history, or fails. -/
theorem rely_begin {Q : Except Err Unit → View D Row Env → Prop}
    (hok : ∀ t env, I.rel [] time t → adm env →
      Q (.ok ()) ⟨t, some (seen.getD t), .active env []⟩)
    (herr : ∀ t e, I.rel [] time t → E.Injected adm e →
      Q (.error e) ⟨t, some (seen.getD t), .idle⟩) :
    Await.wp (E.rely I adm guar) (Await.await (.begin : Command Stmt Ext))
      ⟨time, seen, .idle⟩ Q := by
  intro t env hrel hadm
  simp only [Engine.step]
  cases hf : E.fault env with
  | some e => exact ⟨fun h => absurd rfl h, herr t e hrel ⟨env, hadm, hf⟩⟩
  | none => exact ⟨fun h => absurd rfl h, hok t env hrel hadm⟩

/-- A statement in an open transaction. It sees the committed database of the moment with
the transaction's own row versions on top. -/
theorem rely_client {q : Stmt} {start : Env} {ws : List Row}
    {Q : Except Err (S q) → View D Row Env → Prop}
    (hok : ∀ t env rows ans, I.rel ws time t → adm env →
      E.exec q start env (writeAll t.now ws) = .ok (rows, ans) →
      Q (.ok ans) ⟨t, some (seen.getD t), .active start (ws ++ rows)⟩)
    (herr : ∀ t e, I.rel ws time t →
      (E.Injected adm e ∨
        ∃ env, adm env ∧ E.exec q start env (writeAll t.now ws) = .error e) →
      Q (.error e) ⟨t, some (seen.getD t), .failed⟩) :
    Await.wp (E.rely I adm guar) (Await.await (.client q : Command Stmt Ext))
      ⟨time, seen, .active start ws⟩ Q := by
  intro t env hrel hadm
  simp only [Engine.step]
  cases hf : E.fault env with
  | some e => exact ⟨fun h => absurd rfl h, herr t e hrel (Or.inl ⟨env, hadm, hf⟩)⟩
  | none =>
      simp only
      cases hx : E.exec q start env (writeAll t.now ws) with
      | error e => exact ⟨fun h => absurd rfl h, herr t e hrel (Or.inr ⟨env, hadm, hx⟩)⟩
      | ok r => exact ⟨fun h => absurd rfl h, hok t env r.1 r.2 hrel hadm hx⟩

/-- `COMMIT` has to keep the guarantee at the moment of the commit, and then
publishes. -/
theorem rely_commit {start : Env} {ws : List Row}
    {Q : Except Err Unit → View D Row Env → Prop}
    (hguar : ∀ t, I.rel ws time t → guar (seen.getD t) t ws)
    (hok : ∀ t, I.rel ws time t → Q (.ok ()) ⟨t.publish ws, some (seen.getD t), .idle⟩)
    (herr : ∀ t e, I.rel ws time t → E.Injected adm e →
      Q (.error e) ⟨t, some (seen.getD t), .idle⟩) :
    Await.wp (E.rely I adm guar) (Await.await (.commit : Command Stmt Ext))
      ⟨time, seen, .active start ws⟩ Q := by
  intro t env hrel hadm
  simp only [Engine.step]
  cases hf : E.fault env with
  | some e => exact ⟨fun h => absurd rfl h, herr t e hrel ⟨env, hadm, hf⟩⟩
  | none => exact ⟨fun _ => hguar t hrel, hok t hrel⟩

/-- A `COMMIT` that finds no transaction. -/
theorem rely_commit_idle {Q : Except Err Unit → View D Row Env → Prop}
    (hok : ∀ t, I.rel [] time t → Q (.ok ()) ⟨t, some (seen.getD t), .idle⟩)
    (herr : ∀ t e, I.rel [] time t → E.Injected adm e →
      Q (.error e) ⟨t, some (seen.getD t), .idle⟩) :
    Await.wp (E.rely I adm guar) (Await.await (.commit : Command Stmt Ext))
      ⟨time, seen, .idle⟩ Q := by
  intro t env hrel hadm
  simp only [Engine.step]
  cases hf : E.fault env with
  | some e => exact ⟨fun h => absurd rfl h, herr t e hrel ⟨env, hadm, hf⟩⟩
  | none => exact ⟨fun h => absurd rfl h, hok t hrel⟩

/-- A `ROLLBACK` ends any transaction, also when its answer is lost. -/
theorem rely_rollback {tx : Tx Env Row} {Q : Except Err Unit → View D Row Env → Prop}
    (hok : ∀ t, I.rel tx.writes time t → Q (.ok ()) ⟨t, some (seen.getD t), .idle⟩)
    (herr : ∀ t e, I.rel tx.writes time t → E.Injected adm e →
      Q (.error e) ⟨t, some (seen.getD t), .idle⟩) :
    Await.wp (E.rely I adm guar) (Await.await (.rollback : Command Stmt Ext))
      ⟨time, seen, tx⟩ Q := by
  intro t env hrel hadm
  simp only [Engine.step]
  cases hf : E.fault env with
  | some e => exact ⟨fun h => absurd rfl h, herr t e hrel ⟨env, hadm, hf⟩⟩
  | none => exact ⟨fun h => absurd rfl h, hok t hrel⟩

/-- A statement on another connection: it commits at once. -/
theorem rely_pool {q : Stmt} {tx : Tx Env Row} {Q : Except Err (S q) → View D Row Env → Prop}
    (hok : ∀ t env rows ans, I.rel tx.writes time t → adm env →
      E.exec q env env t.now = .ok (rows, ans) →
      (rows ≠ [] → guar (seen.getD t) t rows) ∧
        Q (.ok ans) ⟨t.publish rows, some (seen.getD t), tx⟩)
    (herr : ∀ t e, I.rel tx.writes time t →
      (E.Injected adm e ∨ ∃ env, adm env ∧ E.exec q env env t.now = .error e) →
      Q (.error e) ⟨t, some (seen.getD t), tx⟩) :
    Await.wp (E.rely I adm guar) (Await.await (.pool q : Command Stmt Ext))
      ⟨time, seen, tx⟩ Q := by
  intro t env hrel hadm
  simp only [Engine.step, Engine.autocommit]
  cases hf : E.fault env with
  | some e => exact ⟨fun h => absurd rfl h, herr t e hrel (Or.inl ⟨env, hadm, hf⟩)⟩
  | none =>
      simp only
      cases hx : E.exec q env env t.now with
      | error e => exact ⟨fun h => absurd rfl h, herr t e hrel (Or.inr ⟨env, hadm, hx⟩)⟩
      | ok r => exact hok t env r.1 r.2 hrel hadm hx

/-- A `SELECT` on another connection. -/
theorem rely_pool_read {q : Stmt} {f : D → S q} {tx : Tx Env Row}
    {Q : Except Err (S q) → View D Row Env → Prop}
    (hread : ∀ env db, E.exec q env env db = .ok ([], f db))
    (hok : ∀ t, I.rel tx.writes time t →
      Q (.ok (f t.now)) ⟨t, some (seen.getD t), tx⟩)
    (herr : ∀ t e, I.rel tx.writes time t → E.Injected adm e →
      Q (.error e) ⟨t, some (seen.getD t), tx⟩) :
    Await.wp (E.rely I adm guar) (Await.await (.pool q : Command Stmt Ext))
      ⟨time, seen, tx⟩ Q := by
  refine rely_pool ?_ ?_
  · intro t env rows ans hrel _ hx
    rw [hread] at hx
    cases hx
    exact ⟨fun h => absurd rfl h, hok t hrel⟩
  · rintro t e hrel (hi | ⟨env, _, hx⟩)
    · exact herr t e hrel hi
    · rw [hread] at hx
      cases hx

/-- A command to the outside leaves log and transaction as the interference made
them. -/
theorem rely_ext {e : Ext} {tx : Tx Env Row} {Q : Except Err (X e) → View D Row Env → Prop}
    (h : ∀ t env, I.rel tx.writes time t → adm env →
      Q (E.ext e env) ⟨t, some (seen.getD t), tx⟩) :
    Await.wp (E.rely I adm guar) (Await.await (.ext e : Command Stmt Ext))
      ⟨time, seen, tx⟩ Q := by
  intro t env hrel hadm
  exact ⟨fun h => absurd rfl h, h t env hrel hadm⟩

end

end ReadCommitted
