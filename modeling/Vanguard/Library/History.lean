import Vanguard.Library.RelyGuarantee
import Mathlib.Logic.Function.Basic

/-!
# `Vanguard.Library.History`: runs with history variables

A `History` says what a session remembers of its own commands. No command reads it.
`HistoryRun` is a run that keeps the histories of its sessions, so that a condition on a step
and a result about a run can speak of what each call has done so far.

`Engine.recall` is the predicate transformer of `Vanguard.Library.RelyGuarantee` with the
history beside the view. Before a command the program may use `own`, what the whole run knows
of the session that has this history. `HistoryRun.sound` is the rule: an invariant `J` of the
world and its histories that gives every session its `own`, and that every step keeps.

`recall_of_rely` takes over a triple proved without history, `Await.recall_keeping` one of a
program whose commands keep the history, and `recall_and` joins two triples.
-/

set_option autoImplicit false

namespace ReadCommitted

/-- What a session remembers: its history at the start, and after the command `c` that ran at
the moment `t` in the transaction `tx` with the outcome `o`. -/
structure History (D Row Stmt Ext Env Err : Type) (S : Stmt → Type) (X : Ext → Type)
    (H : Type) where
  start : H
  next : (c : Command Stmt Ext) → (t : Timeline D Row) → (tx : Tx Env Row) →
    (o : Outcome Env Row Err (c.Res S X)) → H → H

variable {D Row Stmt Ext Env Err Call α H : Type} {S : Stmt → Type} {X : Ext → Type}

/-- The rows that a session has committed. -/
def History.rows : History D Row Stmt Ext Env Err S X (List Row) where
  start := []
  next _ _ _ o rows := rows ++ o.publish

variable [Store D Row]

/-- The histories of the sessions after an action. -/
def World.record (E : Engine D Row Stmt Ext Env Err S X)
    (N : History D Row Stmt Ext Env Err S X H) (w : World D Row Stmt Ext Env Err Call α S X)
    (hs : Nat → H) : Action Call Env → Nat → H
  | .spawn _ => hs
  | .step i env =>
    match w.sessions[i]? with
    | none => hs
    | some s =>
      match s.prog with
      | .ret _ => hs
      | .call c _ =>
        Function.update hs i (N.next c w.timeline s.tx (E.step c env w.timeline.now s.tx) (hs i))

/-- The worlds reached from `w₀`, with their histories, by steps that `ok` allows. -/
inductive HistoryRun (E : Engine D Row Stmt Ext Env Err S X)
    (body : Call → Prog (Command Stmt Ext) (fun c => Except Err (c.Res S X)) α)
    (N : History D Row Stmt Ext Env Err S X H)
    (ok : World D Row Stmt Ext Env Err Call α S X → (Nat → H) → Action Call Env → Prop)
    (w₀ : World D Row Stmt Ext Env Err Call α S X) :
    World D Row Stmt Ext Env Err Call α S X → (Nat → H) → Prop where
  | refl : HistoryRun E body N ok w₀ w₀ fun _ => N.start
  | step {w w' : World D Row Stmt Ext Env Err Call α S X} {hs : Nat → H} (a : Action Call Env) :
      HistoryRun E body N ok w₀ w hs → ok w hs a → w.step E body a = some w' →
      HistoryRun E body N ok w₀ w' (w.record E N hs a)

/-- The world and the histories after a list of actions, when each is enabled and passes the
check `p`. -/
def World.execRecorded (E : Engine D Row Stmt Ext Env Err S X)
    (body : Call → Prog (Command Stmt Ext) (fun c => Except Err (c.Res S X)) α)
    (N : History D Row Stmt Ext Env Err S X H)
    (p : World D Row Stmt Ext Env Err Call α S X → (Nat → H) → Action Call Env → Bool) :
    World D Row Stmt Ext Env Err Call α S X → (Nat → H) → List (Action Call Env) →
      Option (World D Row Stmt Ext Env Err Call α S X × (Nat → H))
  | w, hs, [] => some (w, hs)
  | w, hs, a :: as =>
    if p w hs a then
      (w.step E body a).bind fun w' => w'.execRecorded E body N p (w.record E N hs a) as
    else none

section
variable {E : Engine D Row Stmt Ext Env Err S X}
  {body : Call → Prog (Command Stmt Ext) (fun c => Except Err (c.Res S X)) α}
  {N : History D Row Stmt Ext Env Err S X H}
  {ok : World D Row Stmt Ext Env Err Call α S X → (Nat → H) → Action Call Env → Prop}
  {w₀ w w' : World D Row Stmt Ext Env Err Call α S X} {hs hs' : Nat → H}

/-- A list of actions that executes is a run. -/
theorem HistoryRun.of_exec
    {p : World D Row Stmt Ext Env Err Call α S X → (Nat → H) → Action Call Env → Bool}
    (hok : ∀ w hs a, p w hs a = true → ok w hs a) (hw : HistoryRun E body N ok w₀ w hs)
    {as : List (Action Call Env)} (h : w.execRecorded E body N p hs as = some (w', hs')) :
    HistoryRun E body N ok w₀ w' hs' := by
  induction as generalizing w hs with
  | nil =>
      cases h
      exact hw
  | cons a as ih =>
      rw [World.execRecorded] at h
      split at h
      · rename_i hp
        obtain ⟨w₁, h₁, h⟩ := Option.bind_eq_some_iff.mp h
        exact ih (hw.step a (hok w hs a hp) h₁) h
      · cases h

/-- The history of a session that steps. -/
theorem World.record_step {i : Nat} {env : Env} {s : Session D Row Stmt Ext Env Err Call α S X}
    {c : Command Stmt Ext} {k : Except Err (c.Res S X) →
      Prog (Command Stmt Ext) (fun c => Except Err (c.Res S X)) α}
    (hi : w.sessions[i]? = some s) (hk : s.prog = .call c k) :
    w.record E N hs (.step i env) = Function.update hs i
      (N.next c w.timeline s.tx (E.step c env w.timeline.now s.tx) (hs i)) := by
  simp only [World.record, hi, hk]

/-- Only the session that steps gets another history. -/
theorem World.record_ne {i j : Nat} {env : Env} (h : j ≠ i) :
    w.record E N hs (.step i env) j = hs j := by
  simp only [World.record]
  cases w.sessions[i]? with
  | none => rfl
  | some s =>
      dsimp only
      cases s.prog with
      | ret a => rfl
      | call c k => exact Function.update_of_ne h _ _

/-- A run with histories is a run. -/
theorem HistoryRun.run (h : HistoryRun E body N ok w₀ w hs) :
    Run E body (fun _ _ => True) w₀ w := by
  induction h with
  | refl => exact .refl
  | step a _ _ hstep ih => exact ih.step a trivial hstep

/-- A step adds its batch to the rows that its session has committed. -/
theorem World.record_rows {rows : Nat → List Row} (i : Nat) (env : Env) :
    w.record E History.rows rows (.step i env) i = rows i ++ w.batch E i env := by
  cases hs : w.sessions[i]? with
  | none => simp only [World.record, World.batch, hs, List.append_nil]
  | some s =>
      cases hk : s.prog with
      | ret a => simp only [World.record, World.batch, hs, hk, List.append_nil]
      | call c k => simp only [World.record, World.batch, hs, hk, Function.update_self, History.rows]

/-- A session that has not started yet has an empty history. -/
theorem HistoryRun.fresh {t : Timeline D Row} (h : HistoryRun E body N ok (World.start t) w hs)
    {i : Nat} (hi : w.sessions[i]? = none) : hs i = N.start := by
  induction h with
  | refl => rfl
  | @step w w' hs a _ _ hstep ih =>
      rcases World.step_cases hstep with ⟨c, rfl, rfl⟩ | ⟨j, env, s, c, k, rfl, hj, -, -, -, rfl⟩
      · -- The new session is not `i`.
        refine ih ?_
        rw [List.getElem?_eq_none_iff] at hi ⊢
        rw [List.length_append] at hi
        omega
      · have hne : i ≠ j := by
          rintro rfl
          rw [List.getElem?_eq_none_iff, List.length_set] at hi
          rw [List.getElem?_eq_none_iff.mpr hi] at hj
          cases hj
        rw [World.record_ne hne]
        refine ih ?_
        rw [List.getElem?_set_ne (Ne.symm hne)] at hi
        exact hi

end

/-! ### Triples with a history -/

/-- What a program under proof knows: its view and its history. -/
structure Recollection (D Row Env H : Type) where
  view : View D Row Env
  history : H

/-- The predicate transformer of one command of a session with a history. `own` is what the
run knows of the session before the command. -/
def Engine.recall (E : Engine D Row Stmt Ext Env Err S X)
    (N : History D Row Stmt Ext Env Err S X H) (I : Interference D Row)
    (own : Command Stmt Ext → Env → H → Timeline D Row → Prop)
    (guar : H → Timeline D Row → Timeline D Row → List Row → Prop) (c : Command Stmt Ext)
    (r : Recollection D Row Env H)
    (K : Recollection D Row Env H → Except Err (c.Res S X) → Prop) : Prop :=
  ∀ t env, I.rel r.view.tx.writes r.view.time t → own c env r.history t →
    ((E.step c env t.now r.view.tx).publish ≠ [] →
      guar r.history (r.view.seen.getD t) t (E.step c env t.now r.view.tx).publish) ∧
    K ⟨⟨t.publish (E.step c env t.now r.view.tx).publish, some (r.view.seen.getD t),
          (E.step c env t.now r.view.tx).tx⟩,
        N.next c t r.view.tx (E.step c env t.now r.view.tx) r.history⟩
      (E.step c env t.now r.view.tx).answer

section
variable {E : Engine D Row Stmt Ext Env Err S X} {N : History D Row Stmt Ext Env Err S X H}
  {I : Interference D Row} {own : Command Stmt Ext → Env → H → Timeline D Row → Prop}

/-- The rule on one command is monotone in what follows. -/
theorem Engine.recall_mono {guar : H → Timeline D Row → Timeline D Row → List Row → Prop}
    (c : Command Stmt Ext) (r : Recollection D Row Env H)
    (K K' : Recollection D Row Env H → Except Err (c.Res S X) → Prop)
    (hK : ∀ r' a, K r' a → K' r' a) (h : E.recall N I own guar c r K) :
    E.recall N I own guar c r K' :=
  fun t env hrel hown => ⟨(h t env hrel hown).1, hK _ _ (h t env hrel hown).2⟩

/-- Nothing is asked of what the program commits, and its postcondition always holds. -/
theorem recall_trivial {p : Prog (Command Stmt Ext) (fun c => Except Err (c.Res S X)) α}
    {r : Recollection D Row Env H} {Q : α → Recollection D Row Env H → Prop}
    (hQ : ∀ a r', Q a r') : p.wp (E.recall N I own fun _ _ _ _ => True) r Q := by
  induction p generalizing r with
  | ret a => exact hQ a r
  | call c k ih => exact fun t env _ _ => ⟨fun _ => trivial, ih _⟩

/-- A triple proved without history. -/
theorem recall_of_rely {guar : Timeline D Row → Timeline D Row → List Row → Prop}
    {p : Prog (Command Stmt Ext) (fun c => Except Err (c.Res S X)) α} {v : View D Row Env} {h : H}
    {Q : α → View D Row Env → Prop}
    (hp : p.wp (E.rely I (fun _ => True) guar) v Q) :
    p.wp (E.recall N I own fun _ => guar) ⟨v, h⟩ fun a r => Q a r.view := by
  induction p generalizing v h with
  | ret a => exact hp
  | call c k ih =>
      intro t env hrel _
      obtain ⟨hg, hk⟩ := hp t env hrel trivial
      exact ⟨hg, ih _ hk⟩

/-- The history stays `h` over a command that commits nothing. -/
def History.Keeps (N : History D Row Stmt Ext Env Err S X H) (h : H) (c : Command Stmt Ext) :
    Prop :=
  ∀ t tx o, o.publish = [] → N.next c t tx o h = h

/-- A program that commits nothing, and whose commands keep the history. -/
theorem Await.recall_keeping {guar : H → Timeline D Row → Timeline D Row → List Row → Prop}
    {p : Await (Command Stmt Ext) (Command.Res S X) Err α} {v : View D Row Env} {h : H}
    {Q : Except Err α → Recollection D Row Env H → Prop} (hkeeps : p.run.Only (N.Keeps h))
    (hp : Await.wp (E.rely I (fun _ => True) fun _ _ _ => False) p v fun a v' => Q a ⟨v', h⟩) :
    Await.wp (E.recall N I own guar) p ⟨v, h⟩ Q := by
  -- By induction on the commands.
  have key : ∀ (q : Prog (Command Stmt Ext) (fun c => Except Err (c.Res S X)) (Except Err α)) v,
      q.Only (N.Keeps h) →
      q.wp (E.rely I (fun _ => True) fun _ _ _ => False) v (fun a v' => Q a ⟨v', h⟩) →
      q.wp (E.recall N I own guar) ⟨v, h⟩ Q := by
    intro q
    induction q with
    | ret a => exact fun v _ hq => hq
    | call c k ih =>
        intro v hkeeps hq t env hrel _
        obtain ⟨hg, hk⟩ := hq t env hrel trivial
        -- Nobody guarantees a batch, so there is none.
        have hnone : (E.step c env t.now v.tx).publish = [] := by
          by_contra hne
          exact hg hne
        refine ⟨fun hne => absurd hnone hne, ?_⟩
        rw [hkeeps.1 t v.tx _ hnone]
        exact ih _ _ (hkeeps.2 _) hk
  exact key p.run v hkeeps hp

/-- Two triples of one program. The second one need not guarantee anything. -/
theorem recall_and {guar : H → Timeline D Row → Timeline D Row → List Row → Prop}
    {p : Prog (Command Stmt Ext) (fun c => Except Err (c.Res S X)) α}
    {r : Recollection D Row Env H} {Q Q' : α → Recollection D Row Env H → Prop}
    (h : p.wp (E.recall N I own guar) r Q)
    (h' : p.wp (E.recall N I own fun _ _ _ _ => True) r Q') :
    p.wp (E.recall N I own guar) r fun a r' => Q a r' ∧ Q' a r' := by
  induction p generalizing r with
  | ret a => exact ⟨h, h'⟩
  | call c k ih =>
      intro t env hrel hown
      obtain ⟨hg, hk⟩ := h t env hrel hown
      exact ⟨hg, ih _ hk (h' t env hrel hown).2⟩

end

/-! ### Whole runs -/

section
variable {E : Engine D Row Stmt Ext Env Err S X} {N : History D Row Stmt Ext Env Err S X H}
  {I : Interference D Row} {own : Command Stmt Ext → Env → H → Timeline D Row → Prop}
  {guar : Call → Timeline D Row → H → Timeline D Row → Timeline D Row → List Row → Prop}
  {post : Call → Timeline D Row → α → Recollection D Row Env H → Prop}
  {body : Call → Prog (Command Stmt Ext) (fun c => Except Err (c.Res S X)) α}
  {ok : World D Row Stmt Ext Env Err Call α S X → (Nat → H) → Action Call Env → Prop}
  {w w' : World D Row Stmt Ext Env Err Call α S X} {hs : Nat → H} {t₀ : Timeline D Row}

/-- The triple of the rest of every session's program still holds. -/
def World.Recalls (E : Engine D Row Stmt Ext Env Err S X)
    (N : History D Row Stmt Ext Env Err S X H) (I : Interference D Row)
    (own : Command Stmt Ext → Env → H → Timeline D Row → Prop)
    (guar : Call → Timeline D Row → H → Timeline D Row → Timeline D Row → List Row → Prop)
    (post : Call → Timeline D Row → α → Recollection D Row Env H → Prop)
    (w : World D Row Stmt Ext Env Err Call α S X) (hs : Nat → H) : Prop :=
  ∀ (i : Nat) s, w.sessions[i]? = some s → ∃ t, t ≤ w.timeline ∧
    (s.prog.finished = false → I.rel s.tx.writes t w.timeline) ∧
    s.prog.wp (E.recall N I own (guar s.call s.born)) ⟨⟨t, s.seen, s.tx⟩, hs i⟩
      (post s.call s.born)

/-- What the step of a session commits satisfies its guarantee. -/
def World.Guarantees (E : Engine D Row Stmt Ext Env Err S X)
    (guar : Call → Timeline D Row → H → Timeline D Row → Timeline D Row → List Row → Prop)
    (w : World D Row Stmt Ext Env Err Call α S X) (hs : Nat → H) (a : Action Call Env) : Prop :=
  ∀ i env s, a = .step i env → w.sessions[i]? = some s → w.batch E i env ≠ [] →
    guar s.call s.born (hs i) (s.seen.getD w.timeline) w.timeline (w.batch E i env)

/-- A call starts. -/
theorem World.Recalls.spawn (h : w.Recalls E N I own guar post hs) {c : Call}
    (hfresh : hs w.sessions.length = N.start)
    (hbody : (body c).wp (E.recall N I own (guar c w.timeline))
      ⟨⟨w.timeline, none, .idle⟩, N.start⟩ (post c w.timeline)) :
    World.Recalls E N I own guar post
      { w with sessions := w.sessions ++ [⟨c, w.timeline, none, .idle, body c⟩] } hs := by
  intro i s hi
  rcases getElem?_snoc_cases hi with hi | ⟨rfl, rfl⟩
  · exact h i s hi
  · -- The new session is at the start of its program.
    rw [hfresh]
    exact ⟨w.timeline, le_refl _, fun _ => I.refl, hbody⟩

/-- A session that the run knows to own what its program asks for runs one command. -/
theorem World.Recalls.step (h : w.Recalls E N I own guar post hs) (hI : I.Shared) {i : Nat}
    {env : Env} (hstep : w.step E body (.step i env) = some w')
    (hown : ∀ s c k, w.sessions[i]? = some s → s.prog = .call c k → own c env (hs i) w.timeline) :
    w'.Recalls E N I own guar post (w.record E N hs (.step i env)) ∧
      w.Guarantees E guar hs (.step i env) := by
  rcases World.step_cases hstep with ⟨c, ha, -⟩ | ⟨i', env', s, c, k, ha, hi, hk, hb, hc, rfl⟩
  · cases ha
  cases ha
  obtain ⟨t, hle, hrel, hwp⟩ := h i s hi
  rw [hk] at hwp
  -- What was committed since `t` is an interference, so the triple applies at this moment.
  obtain ⟨hg, hrest⟩ := hwp w.timeline env (hrel (by rw [hk]; rfl)) (hown s c k hi hk)
  rw [← hb] at hg hrest
  constructor
  · intro j s' hj
    by_cases hji : j = i
    · -- The session of the step: the rest of its triple.
      subst hji
      rw [List.getElem?_set_self (List.getElem?_eq_some_iff.mp hi).1] at hj
      obtain rfl := Option.some.inj hj
      rw [World.record_step hi hk, Function.update_self]
      exact ⟨_, le_refl _, fun _ => I.refl, hrest⟩
    · -- Another session: the commit is an interference.
      rw [List.getElem?_set_ne (Ne.symm hji)] at hj
      rw [World.record_ne hji]
      obtain ⟨t', hle', hrel', hwp'⟩ := h j s' hj
      exact ⟨t', Timeline.le_publish _ hle',
        fun hf => hI _ _ _ _ (hrel' hf) (hc j s' hj hji), hwp'⟩
  · intro i' env' s' ha hi' hne
    cases ha
    rw [hi] at hi'
    obtain rfl := Option.some.inj hi'
    exact hg hne

/-- The rule for runs with histories. `J` gives each session what its program owns, and every
step keeps it. -/
theorem HistoryRun.sound {J : World D Row Stmt Ext Env Err Call α S X → (Nat → H) → Prop}
    (hI : I.Shared)
    (hbody : ∀ w hs c, ok w hs (.spawn c) → ∀ t, (body c).wp
      (E.recall N I own (guar c t)) ⟨⟨t, none, .idle⟩, N.start⟩ (post c t))
    (h₀ : J (World.start t₀) fun _ => N.start)
    (hown : ∀ w hs i env s c k, J w hs → ok w hs (.step i env) → w.sessions[i]? = some s →
      s.prog = .call c k → own c env (hs i) w.timeline)
    (hstep : ∀ w hs a w', HistoryRun E body N ok (World.start t₀) w hs → J w hs → ok w hs a →
      w.step E body a = some w' → w.Guarantees E guar hs a → J w' (w.record E N hs a))
    (h : HistoryRun E body N ok (World.start t₀) w hs) :
    J w hs ∧ w.Recalls E N I own guar post hs := by
  induction h with
  | refl => exact ⟨h₀, fun i s hi => by simp [World.start] at hi⟩
  | @step w w' hs a h hok hs' ih =>
      obtain ⟨hJ, hrecalls⟩ := ih
      cases a with
      | spawn c =>
          have hguar : w.Guarantees E guar hs (.spawn c) := by
            intro i env s ha
            cases ha
          refine ⟨hstep w hs _ w' h hJ hok hs' hguar, ?_⟩
          cases hs'
          exact hrecalls.spawn (h.fresh (List.getElem?_eq_none_iff.mpr (Nat.le_refl _)))
            (hbody w hs c hok _)
      | step i env =>
          obtain ⟨hnext, hguar⟩ := hrecalls.step hI hs' fun s c k hi hk =>
            hown w hs i env s c k hJ hok hi hk
          exact ⟨hstep w hs _ w' h hJ hok hs' hguar, hnext⟩

/-- The postcondition of a call that has finished. -/
theorem World.Recalls.ended (h : w.Recalls E N I own guar post hs) {i : Nat}
    {s : Session D Row Stmt Ext Env Err Call α S X} (hi : w.sessions[i]? = some s) {a : α}
    (ha : s.prog = .ret a) :
    ∃ t, t ≤ w.timeline ∧ post s.call s.born a ⟨⟨t, s.seen, s.tx⟩, hs i⟩ := by
  obtain ⟨t, hle, -, hwp⟩ := h i s hi
  rw [ha] at hwp
  exact ⟨t, hle, hwp⟩

end

end ReadCommitted
