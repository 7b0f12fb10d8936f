import Vanguard.Library.RelyGuarantee

/-!
# `Vanguard.Library.Alone`: programs that run alone, and where they fail

`Engine.finish` runs a program with nobody else on the store, its commands in a given
sequence of environments. Beside the log and the transaction it keeps a `Progress`: whether
the program has committed a batch, and whether a command has failed since.

`Await.Triple Φ P p Q X` is a Hoare triple: from a state in `P` the program resolves in a
state in `Q` or throws in a state in `X`. The rules below follow a transaction from `BEGIN`
(`Alone.Idle`, `Alone.Working`) over `COMMIT` (`Alone.Closed`). Their exceptional states are
`Alone.Unsaved`, nothing is committed, and `Alone.Blamed`, no batch is committed unless a
later command has failed.

`Engine.progress_finish` ties the progress to the log. `Engine.finish_of_wp` reads a
rely-guarantee triple as a fact about the program run alone.
-/

set_option autoImplicit false

namespace ReadCommitted

/-! ### Triples -/

section
variable {C : Type} {Res : C → Type} {Err : Type} {α β : Type} {σ : Type}

/-- From `P` the program resolves in `Q` or throws in `X`. -/
def Await.Triple (Φ : (c : C) → σ → (σ → Except Err (Res c) → Prop) → Prop) (P : σ → Prop)
    (p : Await C Res Err α) (Q X : σ → Prop) : Prop :=
  ∀ s, P s → Await.wp Φ p s fun r s' =>
    match r with
    | .ok _ => Q s'
    | .error _ => X s'

variable {Φ : (c : C) → σ → (σ → Except Err (Res c) → Prop) → Prop} {P Q R X : σ → Prop}

/-- A return takes the precondition to the postcondition. -/
theorem Await.Triple.pure (a : α) (h : ∀ s, P s → Q s) :
    Await.Triple Φ P (Pure.pure a : Await C Res Err α) Q X :=
  fun s hs => h s hs

/-- A throw takes the precondition to the exceptional postcondition. -/
theorem Await.Triple.throw (e : Err) (h : ∀ s, P s → X s) :
    Await.Triple Φ P (MonadExcept.throw e : Await C Res Err α) Q X :=
  fun s hs => h s hs

/-- The calls of the transformer are monotone. -/
def MonotoneCalls (Φ : (c : C) → σ → (σ → Except Err (Res c) → Prop) → Prop) : Prop :=
  ∀ c s (K K' : σ → Except Err (Res c) → Prop), (∀ s' r, K s' r → K' s' r) → Φ c s K → Φ c s K'

/-- A sequence, with the condition between its parts. -/
theorem Await.Triple.bind (hΦ : MonotoneCalls Φ) {p : Await C Res Err α}
    {f : α → Await C Res Err β} (hp : Await.Triple Φ P p R X)
    (hf : ∀ a, Await.Triple Φ R (f a) Q X) : Await.Triple Φ P (p >>= f) Q X := by
  intro s hs
  rw [Await.wp_bind]
  refine Await.wp_mono hΦ (hp s hs) fun r s' hr => ?_
  cases r with
  | ok a => exact hf a s' hr
  | error e => exact hr

/-- The exceptional states may grow. -/
theorem Await.Triple.weaken (hΦ : MonotoneCalls Φ) {Y : σ → Prop} {p : Await C Res Err α}
    (h : Await.Triple Φ P p Q X) (hX : ∀ s, X s → Y s) : Await.Triple Φ P p Q Y := by
  intro s hs
  refine Await.wp_mono hΦ (h s hs) fun r s' hr => ?_
  cases r with
  | ok a => exact hr
  | error e => exact hX s' hr

/-- A `try` block whose handler throws, and whose last block never does. -/
theorem Await.Triple.tryFinally (hΦ : MonotoneCalls Φ) {body : Await C Res Err α}
    {handler : Err → Await C Res Err α} {fin : Await C Res Err Unit}
    (hbody : Await.Triple Φ P body Q X)
    (hhandler : ∀ e, Await.Triple Φ X (handler e) (fun _ => False) X)
    (hfin : ∀ T : σ → Prop, T = Q ∨ T = X → Await.Triple Φ T fin T fun _ => False) :
    Await.Triple Φ P (Await.tryFinally body handler fin) Q X := by
  intro s hs
  rw [Await.wp_tryFinally]
  refine Await.wp_mono hΦ (hbody s hs) fun r s' hr => ?_
  cases r with
  | ok a =>
      refine Await.wp_mono hΦ (hfin Q (Or.inl rfl) s' hr) fun f s'' hf => ?_
      cases f with
      | ok _ => exact hf
      | error e => exact hf.elim
  | error e =>
      refine Await.wp_mono hΦ (hhandler e s' hr) fun r' s'' hr' => ?_
      cases r' with
      | ok a => exact hr'.elim
      | error e' =>
          refine Await.wp_mono hΦ (hfin X (Or.inr rfl) s'' hr') fun f s''' hf => ?_
          cases f with
          | ok _ => exact hf
          | error e'' => exact hf.elim

end

/-! ### A program alone -/

/-- How far a program has come: it has committed nothing, or a batch, or a command has failed
after a batch was committed. -/
inductive Progress where
  | uncommitted
  | committed
  | failedAfter
  deriving DecidableEq

/-- The progress after a command that commits a batch, and may have failed. -/
def Progress.next {Row : Type} (batch : List Row) (failed : Bool) : Progress → Progress
  | uncommitted => if batch.isEmpty then uncommitted else committed
  | committed => if failed then failedAfter else committed
  | failedAfter => failedAfter

/-- The state of a program that runs alone: the environments of its next commands, the log, its
transaction and its progress. -/
structure Alone (D Row Env : Type) where
  envs : Nat → Env
  time : Timeline D Row
  tx : Tx Env Row
  progress : Progress

/-- The command has thrown. -/
def isError {Err A : Type} : Except Err A → Bool
  | .ok _ => false
  | .error _ => true

variable {D Row Stmt Ext Env Err α : Type} {S : Stmt → Type} {X : Ext → Type} [Store D Row]

namespace Engine

/-- What the next command does. -/
def outcome (E : Engine D Row Stmt Ext Env Err S X) (c : Command Stmt Ext)
    (s : Alone D Row Env) : Outcome Env Row Err (c.Res S X) :=
  E.step c (s.envs 0) s.time.now s.tx

/-- The state after a command. -/
def advance (E : Engine D Row Stmt Ext Env Err S X) (c : Command Stmt Ext)
    (s : Alone D Row Env) : Alone D Row Env where
  envs n := s.envs (n + 1)
  time := s.time.publish (E.outcome c s).publish
  tx := (E.outcome c s).tx
  progress := s.progress.next (E.outcome c s).publish (isError (E.outcome c s).answer)

/-- A program that runs alone: its result and its last state. -/
def finish (E : Engine D Row Stmt Ext Env Err S X) :
    Prog (Command Stmt Ext) (fun c => Except Err (c.Res S X)) α → Alone D Row Env →
      α × Alone D Row Env
  | .ret a, s => (a, s)
  | .call c k, s => E.finish (k (E.outcome c s).answer) (E.advance c s)

/-- The predicate transformer of a command alone. -/
def alone (E : Engine D Row Stmt Ext Env Err S X) (c : Command Stmt Ext)
    (s : Alone D Row Env)
    (K : Alone D Row Env → Except Err (c.Res S X) → Prop) : Prop :=
  K (E.advance c s) (E.outcome c s).answer

variable {E : Engine D Row Stmt Ext Env Err S X}

/-- The calls of a program that runs alone are monotone. -/
theorem alone_mono : MonotoneCalls E.alone :=
  fun _ _ _ _ hK h => hK _ _ h

/-- The precondition of a program that runs alone is a fact about its one run. -/
theorem wp_alone {p : Prog (Command Stmt Ext) (fun c => Except Err (c.Res S X)) α}
    {s : Alone D Row Env} {Q : α → Alone D Row Env → Prop} :
    p.wp E.alone s Q ↔ Q (E.finish p s).1 (E.finish p s).2 := by
  induction p generalizing s with
  | ret a => rfl
  | call c k ih => exact ih _

/-- A triple proved for nobody else describes the program run alone. -/
theorem finish_of_wp {guar : Timeline D Row → Timeline D Row → List Row → Prop}
    (adm : Env → Prop) {p : Prog (Command Stmt Ext) (fun c => Except Err (c.Res S X)) α}
    {s : Alone D Row Env} (hadm : ∀ n, adm (s.envs n)) {seen : Option (Timeline D Row)}
    {Q : α → View D Row Env → Prop}
    (h : p.wp (E.rely Interference.alone adm guar) ⟨s.time, seen, s.tx⟩ Q) :
    ∃ seen', Q (E.finish p s).1 ⟨(E.finish p s).2.time, seen', (E.finish p s).2.tx⟩ := by
  induction p generalizing s seen with
  | ret a => exact ⟨seen, h⟩
  | call c k ih =>
      obtain ⟨-, hk⟩ := h s.time (s.envs 0) rfl (hadm 0)
      exact ih _ (s := E.advance c s) (fun n => hadm (n + 1)) hk

/-- A program only adds to the log. -/
theorem le_finish (p : Prog (Command Stmt Ext) (fun c => Except Err (c.Res S X)) α)
    (s : Alone D Row Env) : s.time ≤ (E.finish p s).2.time := by
  induction p generalizing s with
  | ret a => exact le_refl _
  | call c k ih => exact le_trans (Timeline.le_publish _ (le_refl _)) (ih _ (E.advance c s))

/-- An asynchronous function that runs alone only adds to the log. -/
theorem wp_le (p : Await (Command Stmt Ext) (Command.Res S X) Err α) (s : Alone D Row Env) :
    Await.wp E.alone p s fun _ s' => s.time ≤ s'.time :=
  wp_alone.mpr (le_finish _ _)

/-- The progress and the log at the end of a program. -/
theorem progress_finish {p : Prog (Command Stmt Ext) (fun c => Except Err (c.Res S X)) α}
    {s : Alone D Row Env} (h : s.progress = .uncommitted) :
    (E.finish p s).2.progress = .uncommitted ↔ (E.finish p s).2.time = s.time := by
  -- Every state reached from `s` has the log of `s` exactly while nothing is committed.
  have key : ∀ (p : Prog (Command Stmt Ext) (fun c => Except Err (c.Res S X)) α)
      (t : Alone D Row Env), s.time ≤ t.time → (t.progress = .uncommitted ↔ t.time = s.time) →
      ((E.finish p t).2.progress = .uncommitted ↔ (E.finish p t).2.time = s.time) := by
    intro p
    induction p with
    | ret a => exact fun t _ ht => ht
    | call c k ih =>
        intro t hle ht
        refine ih _ (E.advance c t) (Timeline.le_publish _ hle) ?_
        show Progress.next (E.outcome c t).publish _ t.progress = _ ↔
          t.time.publish (E.outcome c t).publish = s.time
        cases hb : (E.outcome c t).publish with
        | nil =>
            rw [Timeline.publish_nil, ← ht]
            cases t.progress <;> simp only [Progress.next] <;> grind
        | cons r rows =>
            have hlater : t.time.commit (r :: rows) ≠ s.time := by
              intro he
              have hlen := Timeline.length_le_of_le hle
              rw [← he, Timeline.length] at hlen
              omega
            constructor
            · intro hp
              cases hprog : t.progress <;> rw [hprog] at hp <;> simp [Progress.next] at hp
              split at hp <;> cases hp
            · exact fun he => absurd he hlater
  exact key p s (le_refl _) (iff_of_true h rfl)

end Engine

/-! ### The stages of a transaction -/

namespace Alone

/-- Nothing is committed, and no transaction is open. -/
def Idle (s : Alone D Row Env) : Prop := s.progress = .uncommitted ∧ s.tx = .idle

/-- Nothing is committed, and a transaction is open or has failed. -/
def Working (s : Alone D Row Env) : Prop := s.progress = .uncommitted ∧ s.tx ≠ .idle

/-- The transaction is over, and no command has failed after it. -/
def Closed (s : Alone D Row Env) : Prop := s.progress ≠ .failedAfter ∧ s.tx = .idle

/-- Nothing is committed. -/
def Unsaved (s : Alone D Row Env) : Prop := s.progress = .uncommitted

/-- Nothing is committed, or a command has failed after the commit. -/
def Blamed (s : Alone D Row Env) : Prop := s.progress ≠ .committed

omit [Store D Row] in
/-- A session that has committed nothing may fail: there is no commit a failure would hide. -/
theorem Unsaved.blamed {s : Alone D Row Env} (h : s.Unsaved) : s.Blamed := by
  rw [Blamed, h]
  exact Progress.noConfusion

omit [Store D Row] in
/-- Before its transaction, a call has committed nothing. -/
theorem Idle.blamed {s : Alone D Row Env} (h : s.Idle) : s.Blamed :=
  Unsaved.blamed h.1

end Alone

namespace Engine

variable {E : Engine D Row Stmt Ext Env Err S X} {c : Command Stmt Ext} {s : Alone D Row Env}

/-- A command that commits nothing and keeps the transaction. -/
def Silent (E : Engine D Row Stmt Ext Env Err S X) (c : Command Stmt Ext)
    (s : Alone D Row Env) : Prop :=
  (E.outcome c s).publish = [] ∧ (E.outcome c s).tx = s.tx

/-- A command that commits nothing leaves a program that has committed nothing. -/
theorem unsaved_advance (h : (E.outcome c s).publish = []) (hs : s.Unsaved) :
    (E.advance c s).Unsaved := by
  show Progress.next _ _ s.progress = _
  rw [h, hs]
  rfl

/-- It also leaves one that has failed after its commit. -/
theorem blamed_advance (h : (E.outcome c s).publish = []) (hs : s.Blamed) :
    (E.advance c s).Blamed := by
  cases hp : s.progress with
  | uncommitted => exact (unsaved_advance h hp).blamed
  | committed => exact absurd hp hs
  | failedAfter =>
      show Progress.next _ _ s.progress ≠ _
      rw [hp]
      exact Progress.noConfusion

/-- If it fails after the commit, it is to blame. -/
theorem blamed_advance_of_error (h : (E.outcome c s).publish = [])
    (herr : isError (E.outcome c s).answer = true) : (E.advance c s).Blamed := by
  show Progress.next _ _ s.progress ≠ _
  rw [h, herr]
  cases s.progress <;> simp [Progress.next]

/-- A silent command that answers well leaves the transaction over and nothing failed
after it. -/
theorem closed_advance (h : E.Silent c s) (hok : isError (E.outcome c s).answer = false)
    (hs : s.Closed) : (E.advance c s).Closed := by
  refine ⟨?_, h.2.trans hs.2⟩
  show Progress.next _ _ s.progress ≠ _
  rw [h.1, hok]
  have hne := hs.1
  cases hp : s.progress <;> simp_all [Progress.next]

/-- Awaiting a command alone gives its outcome, and moves the state by it. -/
theorem wp_await (Q : Except Err (c.Res S X) → Alone D Row Env → Prop) :
    Await.wp E.alone (Await.await c) s Q ↔ Q (E.outcome c s).answer (E.advance c s) :=
  Iff.rfl

/-- A command whose outcome is known. -/
theorem wp_await_of {o : Outcome Env Row Err (c.Res S X)} (h : E.outcome c s = o)
    {Q : Except Err (c.Res S X) → Alone D Row Env → Prop}
    (hQ : Q o.answer
      { envs := fun n => s.envs (n + 1)
        time := s.time.publish o.publish
        tx := o.tx
        progress := s.progress.next o.publish (isError o.answer) }) :
    Await.wp E.alone (Await.await c) s Q := by
  subst h
  exact hQ

/-- The triple of a command, from its two ways out. -/
theorem triple_await {P Q Y : Alone D Row Env → Prop}
    (hok : ∀ s, P s → isError (E.outcome c s).answer = false → Q (E.advance c s))
    (herr : ∀ s, P s → isError (E.outcome c s).answer = true → Y (E.advance c s)) :
    Await.Triple E.alone P (Await.await c) Q Y := by
  intro s hs
  rw [wp_await]
  cases ha : (E.outcome c s).answer with
  | ok a => exact hok s hs (by rw [ha]; rfl)
  | error e => exact herr s hs (by rw [ha]; rfl)

/-- A silent command before the transaction: it commits nothing, whether it fails or
not. -/
theorem triple_idle (h : ∀ s : Alone D Row Env, s.Idle → E.Silent c s) :
    Await.Triple E.alone Alone.Idle (Await.await c) Alone.Idle Alone.Unsaved :=
  triple_await (fun s hs _ => ⟨unsaved_advance (h s hs).1 hs.1, (h s hs).2.trans hs.2⟩)
    fun s hs _ => unsaved_advance (h s hs).1 hs.1

/-- A silent command after the transaction: if it fails, it fails after the commit. -/
theorem triple_closed (h : ∀ s : Alone D Row Env, s.Closed → E.Silent c s) :
    Await.Triple E.alone Alone.Closed (Await.await c) Alone.Closed Alone.Blamed :=
  triple_await (fun s hs hok => closed_advance (h s hs) hok hs)
    fun s hs herr => blamed_advance_of_error (h s hs).1 herr

/-! The commands. -/

/-- A command to the outside is silent: it reaches no table. -/
theorem silent_ext (e : Ext) (s : Alone D Row Env) : E.Silent (.ext e) s := ⟨rfl, rfl⟩

/-- A statement that writes nothing outside a transaction. -/
def Reads (E : Engine D Row Stmt Ext Env Err S X) (q : Stmt) : Prop :=
  ∀ env db r, E.exec q env env db = .ok r → r.1 = []

/-- A statement that only reads is silent on the pool. -/
theorem silent_pool {q : Stmt} (h : E.Reads q) (s : Alone D Row Env) : E.Silent (.pool q) s := by
  simp only [Silent, outcome, step, autocommit]
  cases E.fault (s.envs 0) with
  | some e => exact ⟨rfl, rfl⟩
  | none =>
      dsimp only
      cases hx : E.exec q (s.envs 0) (s.envs 0) s.time.now with
      | error e => exact ⟨rfl, rfl⟩
      | ok r => exact ⟨h _ _ r hx, rfl⟩

/-- A read on the client is one on the pool, when no transaction is open. -/
theorem silent_client {q : Stmt} (h : E.Reads q) (htx : s.tx = .idle) :
    E.Silent (.client q) s := by
  have hpool := silent_pool h s
  simp only [Silent, outcome, step, htx] at hpool ⊢
  exact hpool

/-- A `COMMIT` that finds no transaction. -/
theorem silent_commit (htx : s.tx = .idle) : E.Silent (.commit : Command Stmt Ext) s := by
  simp only [Silent, outcome, step, htx]
  cases E.fault (s.envs 0) <;> exact ⟨rfl, rfl⟩

/-- `BEGIN` opens the transaction, or fails with nothing committed. -/
theorem triple_begin :
    Await.Triple E.alone Alone.Idle (Await.await .begin) Alone.Working Alone.Unsaved := by
  have hpublish : ∀ s : Alone D Row Env, (E.outcome .begin s).publish = [] := by
    intro s
    simp only [outcome, step]
    cases E.fault (s.envs 0) <;> cases s.tx <;> rfl
  refine triple_await (fun s hs hok => ⟨unsaved_advance (hpublish s) hs.1, ?_⟩)
    fun s hs _ => unsaved_advance (hpublish s) hs.1
  show (E.outcome .begin s).tx ≠ .idle
  simp only [outcome, step, hs.2] at hok ⊢
  cases hf : E.fault (s.envs 0) with
  | some e =>
      rw [hf] at hok
      cases hok
  | none => exact fun he => nomatch he

/-- A statement on the client keeps the transaction uncommitted, whether it fails or
not. -/
theorem triple_client (q : Stmt) :
    Await.Triple E.alone Alone.Working (Await.await (.client q)) Alone.Working Alone.Unsaved := by
  have hstep : ∀ s : Alone D Row Env, s.Working →
      (E.outcome (.client q) s).publish = [] ∧ (E.outcome (.client q) s).tx ≠ .idle := by
    intro s hs
    simp only [outcome, step]
    cases htx : s.tx with
    | idle => exact absurd htx hs.2
    | failed => exact ⟨rfl, fun he => nomatch he⟩
    | active start ws =>
        dsimp only
        cases E.fault (s.envs 0) with
        | some e => exact ⟨rfl, fun he => nomatch he⟩
        | none =>
            dsimp only
            cases E.exec q start (s.envs 0) (writeAll s.time.now ws) with
            | error e => exact ⟨rfl, fun he => nomatch he⟩
            | ok r => exact ⟨rfl, fun he => nomatch he⟩
  exact triple_await
    (fun s hs _ => ⟨unsaved_advance (hstep s hs).1 hs.1, (hstep s hs).2⟩)
    fun s hs _ => unsaved_advance (hstep s hs).1 hs.1

/-- The `COMMIT` of a transaction: it ends the transaction, and commits nothing if it fails. -/
theorem triple_commit :
    Await.Triple E.alone Alone.Working (Await.await .commit) Alone.Closed Alone.Unsaved := by
  have hstep : ∀ s : Alone D Row Env, (E.outcome .commit s).tx = .idle ∧
      (isError (E.outcome .commit s).answer = true → (E.outcome .commit s).publish = []) := by
    intro s
    simp only [outcome, step]
    cases E.fault (s.envs 0) with
    | some e => exact ⟨rfl, fun _ => rfl⟩
    | none =>
        cases s.tx with
        | active start ws => exact ⟨rfl, fun h => nomatch h⟩
        | idle | failed => exact ⟨rfl, fun _ => rfl⟩
  refine triple_await (fun s hs hok => ⟨?_, (hstep s).1⟩) fun s hs herr =>
    unsaved_advance ((hstep s).2 herr) hs.1
  show Progress.next _ _ s.progress ≠ _
  rw [hs.1, Progress.next]
  split <;> exact Progress.noConfusion

/-- A `ROLLBACK` commits nothing. -/
theorem publish_rollback (s : Alone D Row Env) :
    (E.outcome (.rollback : Command Stmt Ext) s).publish = [] := by
  simp only [outcome, step]
  cases E.fault (s.envs 0) <;> rfl

end Engine

end ReadCommitted
