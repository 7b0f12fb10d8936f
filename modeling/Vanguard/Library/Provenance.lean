import Vanguard.Library.RelyGuarantee

/-!
# `Vanguard.Library.Provenance`: what a program sends comes from what it has read

`reads c r` is what a program learns from the answer `r` of the call `c`, and `sends read c`
says that it may make the call `c` after it has learnt `read`. `Prog.Follows` says so of every
call of a program, whatever the answers are.

`World.Follows` is the invariant of the runs: every session follows, and everything it has
learnt is `Known` in the committed database. `World.Follows.step` is the rule: an answer is
known when it is given, and a step keeps what is known. `World.Follows.sent` is its use at the
next call of a session.
-/

set_option autoImplicit false

namespace ReadCommitted

/-! ### Programs -/

section
variable {C : Type} {R : C → Type} {α A : Type}

/-- After `read`, every call of the program may be sent. -/
def Prog.Follows (reads : (c : C) → R c → List A) (sends : List A → C → Prop)
    (p : Prog C R α) (read : List A) : Prop :=
  p.wp (fun c read K => sends read c ∧ ∀ r, K (read ++ reads c r) r) read fun _ _ => True

variable {reads : (c : C) → R c → List A} {sends : List A → C → Prop}

/-- A call may be sent after what has been read, and its answer is read before the rest. -/
theorem Prog.follows_call {c : C} {k : R c → Prog C R α} {read : List A} :
    (Prog.call c k).Follows reads sends read ↔
      sends read c ∧ ∀ r, (k r).Follows reads sends (read ++ reads c r) := Iff.rfl

/-- A program whose calls may all be sent from the start. -/
theorem Prog.Follows.of_only {p : Prog C R α} {read : List A}
    (hmono : ∀ c more, sends read c → sends (read ++ more) c) (h : p.Only (sends read)) :
    p.Follows reads sends read := by
  -- By induction on the calls, after each of which more has been read.
  have key : ∀ more, p.Follows reads sends (read ++ more) := by
    induction p with
    | ret a => exact fun _ => trivial
    | call c k ih =>
        intro more
        refine Prog.follows_call.mpr ⟨hmono c more h.1, fun r => ?_⟩
        rw [List.append_assoc]
        exact ih r (h.2 r) _
  simpa using key []

end

section
variable {C : Type} {Res : C → Type} {Err : Type} {α β A : Type}
  {reads : (c : C) → Except Err (Res c) → List A} {sends : List A → C → Prop}

/-- A lookup, then a program that goes on from what it has found. -/
theorem Await.follows_lookup_bind {c : C} {g : Res c → β} {f : β → Await C Res Err α}
    {read : List A} (hc : sends read c)
    (hok : ∀ a, (f (g a)).run.Follows reads sends (read ++ reads c (.ok a))) :
    ((do
      let a ← Await.await c
      pure (g a)) >>= f : Await C Res Err α).run.Follows reads sends read := by
  refine Prog.follows_call.mpr ⟨hc, fun r => ?_⟩
  cases r with
  | ok a => exact hok a
  | error e => exact trivial

/-- A program, then one that follows whatever has been read. -/
theorem Await.follows_bind {p : Await C Res Err α} {f : α → Await C Res Err β} {read : List A}
    (hp : p.run.Follows reads sends read) (hf : ∀ a read', (f a).run.Follows reads sends read') :
    (p >>= f).run.Follows reads sends read := by
  have key : ∀ (q : Prog C (fun c => Except Err (Res c)) (Except Err α)) read,
      q.Follows reads sends read → (q >>= ExceptT.bindCont f).Follows reads sends read := by
    intro q
    induction q with
    | ret r =>
        intro read _
        cases r with
        | ok a => exact hf a read
        | error e => exact trivial
    | call c k ih => exact fun read hq => ⟨hq.1, fun r => ih r _ (hq.2 r)⟩
  exact key p.run read hp

end

/-! ### Row versions -/

section
variable {D Row Stmt Ext Env Err : Type} {S : Stmt → Type} {X : Ext → Type} [Store D Row]
  {E : Engine D Row Stmt Ext Env Err S X} {env : Env} {db : D} {tx : Tx Env Row} {r : Row}

/-- The command is a statement that writes the row version. -/
def Engine.Writes (E : Engine D Row Stmt Ext Env Err S X) (env : Env) (db : D) (tx : Tx Env Row)
    (r : Row) : Command Stmt Ext → Prop
  | .client q => ∃ start rows answer,
      E.exec q start env (writeAll db tx.writes) = .ok (rows, answer) ∧ r ∈ rows
  | .pool q => ∃ rows answer, E.exec q env env db = .ok (rows, answer) ∧ r ∈ rows
  | _ => False

omit [Store D Row] in
/-- A statement that commits at once. -/
theorem Engine.autocommit_cases (q : Stmt) : (E.autocommit q env db tx).tx = tx ∧
    (r ∈ (E.autocommit q env db tx).publish →
      ∃ rows answer, E.exec q env env db = .ok (rows, answer) ∧ r ∈ rows) := by
  rw [Engine.autocommit]
  split
  · exact ⟨rfl, fun h => absurd h List.not_mem_nil⟩
  · split
    · rename_i rows answer hx
      exact ⟨rfl, fun h => ⟨rows, answer, hx, h⟩⟩
    · exact ⟨rfl, fun h => absurd h List.not_mem_nil⟩

/-- What a command commits was uncommitted before it, or the command writes it. -/
theorem Engine.publish_cases {c : Command Stmt Ext} (h : r ∈ (E.step c env db tx).publish) :
    r ∈ tx.writes ∨ E.Writes env db tx r c := by
  cases c with
  | begin =>
      simp only [Engine.step] at h
      split at h
      · cases h
      · split at h <;> cases h
  | commit =>
      simp only [Engine.step] at h
      split at h
      · cases h
      · exact Or.inl h
      · cases h
      · cases h
  | rollback =>
      simp only [Engine.step] at h
      split at h <;> cases h
  | client q =>
      simp only [Engine.step] at h
      split at h
      · cases h
      · obtain ⟨rows, answer, hx, hr⟩ := (Engine.autocommit_cases q).2 h
        exact Or.inr ⟨env, rows, answer, hx, hr⟩
      · split at h
        · cases h
        · split at h <;> cases h
  | pool q => exact Or.inr ((Engine.autocommit_cases q).2 h)
  | ext e => cases h

/-- What is uncommitted after a command was so before it, or the command is a statement of the
transaction that writes it. -/
theorem Engine.uncommitted_cases {c : Command Stmt Ext} (h : r ∈ (E.step c env db tx).tx.writes) :
    r ∈ tx.writes ∨ ∃ q, c = .client q ∧ E.Writes env db tx r c := by
  cases c with
  | begin =>
      simp only [Engine.step] at h
      split at h
      · exact Or.inl h
      · split at h
        · exact Or.inl h
        · cases h
        · cases h
  | commit =>
      simp only [Engine.step] at h
      split at h <;> cases h
  | rollback =>
      simp only [Engine.step] at h
      split at h <;> cases h
  | client q =>
      simp only [Engine.step] at h
      split at h
      · cases h
      · rw [(Engine.autocommit_cases (r := r) q).1] at h
        cases h
      · split at h
        · cases h
        · split at h
          · rename_i start ws _ _ _ rows answer hx
            rcases List.mem_append.mp h with h | h
            · exact Or.inl h
            · exact Or.inr ⟨q, rfl, start, rows, answer, hx, h⟩
          · cases h
  | pool q =>
      refine Or.inl ?_
      rwa [Engine.step, (Engine.autocommit_cases (r := r) q).1] at h
  | ext e => exact Or.inl h

end

/-! ### Runs -/

section
variable {D Row Stmt Ext Env Err Call α A : Type} {S : Stmt → Type} {X : Ext → Type}
  [Store D Row] {E : Engine D Row Stmt Ext Env Err S X}
  {body : Call → Prog (Command Stmt Ext) (fun c => Except Err (c.Res S X)) α}
  {reads : (c : Command Stmt Ext) → Except Err (c.Res S X) → List A}
  {sends : Call → List A → Command Stmt Ext → Prop} {Known : D → A → Prop}
  {w w' : World D Row Stmt Ext Env Err Call α S X}

/-- Every session follows from what it has read, which is still known. -/
def World.Follows (reads : (c : Command Stmt Ext) → Except Err (c.Res S X) → List A)
    (sends : Call → List A → Command Stmt Ext → Prop) (Known : D → A → Prop)
    (w : World D Row Stmt Ext Env Err Call α S X) : Prop :=
  ∀ s ∈ w.sessions, ∃ read, (∀ a ∈ read, Known w.db a) ∧
    s.prog.Follows reads (sends s.call) read

/-- A step keeps the invariant. -/
theorem World.Follows.step (h : w.Follows reads sends Known) {a : Action Call Env}
    (hs : w.step E body a = some w')
    (hbody : ∀ c, (body c).Follows reads (sends c) [])
    (hkeep : ∀ x, Known w.db x → Known w'.db x)
    (hreads : ∀ c env tx, ∀ x ∈ reads c (E.step c env w.db tx).answer, Known w.db x) :
    w'.Follows reads sends Known := by
  rcases World.step_cases hs with ⟨c, -, rfl⟩ | ⟨i, env, s, c, k, -, hi, hk, -, -, rfl⟩
  · intro s hs
    rcases List.mem_append.mp hs with hs | hs
    · exact h s hs
    · -- The new session has read nothing.
      obtain rfl := List.mem_singleton.mp hs
      exact ⟨[], fun _ ha => absurd ha List.not_mem_nil, hbody c⟩
  · intro s' hs'
    rcases List.mem_or_eq_of_mem_set hs' with hs' | rfl
    · obtain ⟨read, hknown, hfollows⟩ := h s' hs'
      exact ⟨read, fun a ha => hkeep a (hknown a ha), hfollows⟩
    · -- The session of the step has read one more answer.
      obtain ⟨read, hknown, hfollows⟩ := h s (List.mem_of_getElem? hi)
      rw [hk] at hfollows
      refine ⟨_, fun a ha => hkeep a ?_, hfollows.2 _⟩
      rcases List.mem_append.mp ha with ha | ha
      · exact hknown a ha
      · exact hreads c env s.tx a ha

/-- The next call of a session comes from what is known. -/
theorem World.Follows.sent (h : w.Follows reads sends Known)
    {s : Session D Row Stmt Ext Env Err Call α S X} (hs : s ∈ w.sessions) {c : Command Stmt Ext}
    {k : Except Err (c.Res S X) → Prog (Command Stmt Ext) (fun c => Except Err (c.Res S X)) α}
    (hk : s.prog = .call c k) : ∃ read, (∀ a ∈ read, Known w.db a) ∧ sends s.call read c := by
  obtain ⟨read, hknown, hfollows⟩ := h s hs
  rw [hk] at hfollows
  exact ⟨read, hknown, hfollows.1⟩

end

end ReadCommitted
