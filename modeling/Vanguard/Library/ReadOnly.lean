import Vanguard.Library.RelyGuarantee

/-!
# `Vanguard.Library.ReadOnly`: calls that answer without a commit

`Engine.readOnly` is the predicate transformer of a command that neither commits nor opens a
transaction, at every database with the property `J` and in every environment that `adm`
admits. Its state is the number of commands that are left at most. So a triple
`p.wp (E.readOnly J adm) n fun a _ => post a` says that `p` ends within `n` such commands
with an answer that satisfies `post`.

The others may commit what they like between two commands, provided that `J` stays true.
So a triple lifts to runs: `Run.reads` says that a call of such a program is at every
moment of a run at a point of its program where the triple holds, `Session.Reads.batch` that
it commits nothing, and `Session.Reads.answers` that the session comes to its answer when it
is scheduled.
-/

set_option autoImplicit false

namespace ReadCommitted

variable {D Row Stmt Ext Env Err Call α : Type} {S : Stmt → Type} {X : Ext → Type}
  [Store D Row]

/-- The predicate transformer of a command that commits nothing. One command less is left. -/
def Engine.readOnly (E : Engine D Row Stmt Ext Env Err S X) (J : D → Prop) (adm : Env → Prop)
    (c : Command Stmt Ext) : Nat → (Nat → Except Err (c.Res S X) → Prop) → Prop
  | 0, _ => False
  | n + 1, K => ∀ db env, J db → adm env →
      (E.step c env db .idle).publish = [] ∧ (E.step c env db .idle).tx = .idle ∧
        K n (E.step c env db .idle).answer

/-- The rule on one command is monotone in what follows. -/
theorem readOnly_mono {E : Engine D Row Stmt Ext Env Err S X} {J : D → Prop}
    {adm : Env → Prop} (c : Command Stmt Ext) (n : Nat)
    (K K' : Nat → Except Err (c.Res S X) → Prop) (hK : ∀ n' r, K n' r → K' n' r)
    (h : E.readOnly J adm c n K) : E.readOnly J adm c n K' := by
  cases n with
  | zero => exact h
  | succ n =>
      intro db env hJ hadm
      obtain ⟨hpublish, htx, hrest⟩ := h db env hJ hadm
      exact ⟨hpublish, htx, hK _ _ hrest⟩

section
variable {E : Engine D Row Stmt Ext Env Err S X} {J : D → Prop} {adm : Env → Prop}
  {post : α → Prop}

/-- A `SELECT` on another connection. -/
theorem readOnly_pool {n : Nat} {q : Stmt} {f : D → S q} {Q : Except Err (S q) → Nat → Prop}
    (hread : ∀ env db, E.exec q env env db = .ok ([], f db))
    (hok : ∀ db, J db → Q (.ok (f db)) n)
    (herr : ∀ env e, adm env → E.fault env = some e → Q (.error e) n) :
    Await.wp (E.readOnly J adm) (Await.await (.pool q : Command Stmt Ext)) (n + 1) Q := by
  intro db env hJ hadm
  cases hf : E.fault env with
  | some e =>
      have hstep : E.step (.pool q) env db .idle = ⟨[], .idle, .error e⟩ := by
        simp only [Engine.step, Engine.autocommit, hf]
        rfl
      rw [hstep]
      exact ⟨rfl, rfl, herr env e hadm hf⟩
  | none =>
      have hstep : E.step (.pool q) env db .idle = ⟨[], .idle, .ok (f db)⟩ := by
        simp only [Engine.step, Engine.autocommit, hf, hread]
        rfl
      rw [hstep]
      exact ⟨rfl, rfl, hok db hJ⟩

/-- A session that is not in a transaction, with such a program ahead. -/
structure Session.Reads (E : Engine D Row Stmt Ext Env Err S X) (J : D → Prop)
    (adm : Env → Prop) (post : α → Prop) (n : Nat)
    (s : Session D Row Stmt Ext Env Err Call α S X) : Prop where
  idle : s.tx = .idle
  reads : s.prog.wp (E.readOnly J adm) n fun a _ => post a

namespace Session.Reads

variable {n : Nat} {s : Session D Row Stmt Ext Env Err Call α S X}
  {w : World D Row Stmt Ext Env Err Call α S X} {i : Nat} {env : Env}

/-- A finished session has an answer that satisfies the postcondition. -/
theorem post_of_ret (h : s.Reads E J adm post n) {a : α} (ha : s.prog = .ret a) : post a := by
  have hreads := h.reads
  rw [ha] at hreads
  exact hreads

/-- The session commits nothing. -/
theorem batch (h : s.Reads E J adm post n) (hs : w.sessions[i]? = some s) (hJ : J w.db)
    (hadm : adm env) : w.batch E i env = [] := by
  have hreads := h.reads
  rw [World.batch, hs]
  dsimp only
  cases hp : s.prog with
  | ret a => rfl
  | call c k =>
      rw [hp] at hreads
      cases n with
      | zero => exact absurd hreads not_false
      | succ n =>
          show (E.step c env w.timeline.now s.tx).publish = []
          rw [h.idle]
          exact (hreads w.db env hJ hadm).1

/-- The step of such a session that has not finished is enabled. It changes this session
alone, and fewer commands are left. -/
theorem step (h : s.Reads E J adm post n) (hs : w.sessions[i]? = some s)
    (hf : s.prog.finished = false) (hJ : J w.db) (hadm : adm env)
    (body : Call → Prog (Command Stmt Ext) (fun c => Except Err (c.Res S X)) α) :
    ∃ m s', n = m + 1 ∧ s'.Reads E J adm post m ∧ s'.call = s.call ∧
      w.step E body (.step i env) = some { w with sessions := w.sessions.set i s' } := by
  have hreads := h.reads
  cases hp : s.prog with
  | ret a =>
      rw [hp] at hf
      cases hf
  | call c k =>
      rw [hp] at hreads
      cases n with
      | zero => exact absurd hreads not_false
      | succ m =>
          obtain ⟨hpublish, htx, hrest⟩ := hreads w.db env hJ hadm
          refine ⟨m, { s with
              seen := some (s.seen.getD w.timeline)
              tx := .idle
              prog := k (E.step c env w.db .idle).answer }, rfl, ⟨rfl, hrest⟩, rfl, ?_⟩
          have hfree : w.unblocked i [] = true := by
            simp [World.unblocked, compatible]
          have hdb : w.timeline.now = w.db := rfl
          simp only [World.step, hs, hp, h.idle, hdb, hpublish, htx, Tx.writes,
            List.append_nil, hfree, if_true, Timeline.publish_nil]

/-- Scheduled alone, the session comes to its answer and leaves the database as it is. -/
theorem answers (h : s.Reads E J adm post n) (hs : w.sessions[i]? = some s) (hJ : J w.db)
    (hadm : adm env)
    (body : Call → Prog (Command Stmt Ext) (fun c => Except Err (c.Res S X)) α)
    {p : World D Row Stmt Ext Env Err Call α S X → Action Call Env → Bool}
    (hp : ∀ w, p w (.step i env) = true) :
    ∃ m ≤ n, ∃ w' s' a, w.exec E body p (List.replicate m (.step i env)) = some w' ∧
      w'.timeline = w.timeline ∧ w'.sessions[i]? = some s' ∧ s'.call = s.call ∧
      s'.prog = .ret a ∧ post a := by
  -- By induction on the number of commands that are left at most.
  induction n generalizing w s with
  | zero =>
      cases hs' : s.prog with
      | ret a => exact ⟨0, Nat.le_refl _, w, s, a, rfl, rfl, hs, rfl, hs', h.post_of_ret hs'⟩
      | call c k =>
          have hreads := h.reads
          rw [hs'] at hreads
          exact absurd hreads not_false
  | succ n ih =>
      cases hf : s.prog.finished with
      | true =>
          cases hs' : s.prog with
          | ret a =>
              exact ⟨0, Nat.zero_le _, w, s, a, rfl, rfl, hs, rfl, hs', h.post_of_ret hs'⟩
          | call c k =>
              rw [hs'] at hf
              cases hf
      | false =>
          obtain ⟨m, s', hm, hs', hcall, hstep⟩ := h.step hs hf hJ hadm body
          obtain rfl : n = m := Nat.succ.inj hm
          have hlt : i < w.sessions.length := (List.getElem?_eq_some_iff.mp hs).1
          obtain ⟨j, hj, w', s'', a, hexec, ht, hi, hcall', ha, hpost⟩ :=
            ih (w := { w with sessions := w.sessions.set i s' }) hs'
              (List.getElem?_set_self hlt) hJ
          refine ⟨j + 1, Nat.succ_le_succ hj, w', s'', a, ?_, ht, hi, hcall'.trans hcall, ha,
            hpost⟩
          rw [List.replicate_succ, World.exec, if_pos (hp w), hstep]
          exact hexec

end Session.Reads

/-- In a run whose databases have the property `J`, the calls that `C` selects are read-only
at every moment, when their programs are. -/
theorem Run.reads {C : Call → Prop} {n : Nat}
    {body : Call → Prog (Command Stmt Ext) (fun c => Except Err (c.Res S X)) α}
    {ok : World D Row Stmt Ext Env Err Call α S X → Action Call Env → Prop}
    {w₀ w : World D Row Stmt Ext Env Err Call α S X} (h₀ : w₀.sessions = [])
    (hJ : ∀ w, Run E body ok w₀ w → J w.db)
    (hadm : ∀ w i env s, ok w (.step i env) → w.sessions[i]? = some s → C s.call → adm env)
    (hbody : ∀ c, C c → (body c).wp (E.readOnly J adm) n fun a _ => post a)
    (h : Run E body ok w₀ w) :
    ∀ s ∈ w.sessions, C s.call → ∃ m, s.Reads E J adm post m := by
  induction h with
  | refl =>
      intro s hs
      rw [h₀] at hs
      cases hs
  | @step w w' a hw ha hs ih =>
      rcases World.step_cases hs with ⟨c, rfl, rfl⟩ | ⟨i, env, s, c, k, rfl, hi, hk, -, -, rfl⟩
      · intro s hs hC
        rcases List.mem_append.mp hs with hs | hs
        · exact ih s hs hC
        · obtain rfl := List.mem_singleton.mp hs
          exact ⟨n, rfl, hbody c hC⟩
      · intro s' hs' hC
        rcases List.mem_or_eq_of_mem_set hs' with hs' | rfl
        · exact ih s' hs' hC
        · -- The session that steps: the rest of its program.
          obtain ⟨m, hm⟩ := ih s (List.mem_of_getElem? hi) hC
          have hreads := hm.reads
          rw [hk] at hreads
          cases m with
          | zero => exact absurd hreads not_false
          | succ m =>
              obtain ⟨-, htx, hrest⟩ := hreads w.db env (hJ w hw) (hadm w i env s ha hi hC)
              refine ⟨m, ?_, ?_⟩
              · show (E.step c env w.timeline.now s.tx).tx = .idle
                rw [hm.idle]
                exact htx
              · show (k (E.step c env w.timeline.now s.tx).answer).wp _ m _
                rw [hm.idle]
                exact hrest

end

end ReadCommitted
