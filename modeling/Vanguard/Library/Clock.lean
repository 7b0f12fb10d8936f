import Vanguard.Library.RelyGuarantee

/-!
# `Vanguard.Library.Clock`: runs under a clock that never goes back

A `TimedWorld` is a world with the time of its last step, the time at which each call has
arrived, and a `Stamp` for each commit of its log: who has committed it, and when. Every step
of a `TimedRun` happens at the time of the step before it or later. The environment of a
command says the time (`time`); a call that arrives brings its own.

A timed run is a run (`TimedRun.run`). Two lemmas connect its stamps with it. A stamp is not
earlier than the arrival of a call that has started before it (`TimedRun.arrival_le`). Every
commit of the log comes from a step of the session of its stamp, at the time of its stamp
(`TimedRun.commit_origin`).
-/

set_option autoImplicit false

namespace ReadCommitted

/-- The session that has committed a batch, and the time. -/
structure Stamp (T : Type) where
  session : Nat
  time : T
  deriving DecidableEq

/-- An action and its time. A command brings the time in its environment. -/
inductive TimedAction (Call Env T : Type) where
  | spawn (c : Call) (now : T)
  | step (i : Nat) (env : Env)

namespace TimedAction

variable {Call Env T : Type}

/-- The action without its time. -/
def action : TimedAction Call Env T → Action Call Env
  | spawn c _ => .spawn c
  | step i env => .step i env

/-- The time of the action. -/
def now (time : Env → T) : TimedAction Call Env T → T
  | spawn _ now => now
  | step _ env => time env

end TimedAction

/-- A world, the time of its last step, the arrival of each call and the stamp of each commit. -/
structure TimedWorld (D Row Stmt Ext Env Err Call α : Type) (S : Stmt → Type)
    (X : Ext → Type) (T : Type) where
  world : World D Row Stmt Ext Env Err Call α S X
  clock : T
  arrivals : List T
  stamps : List (Stamp T)

variable {D Row Stmt Ext Env Err Call α T : Type} {S : Stmt → Type} {X : Ext → Type}
  [Store D Row]

namespace TimedWorld

/-- The stamp of the batch that a session commits, unless it is empty. -/
def stamp (i : Nat) (now : T) : List Row → List (Stamp T)
  | [] => []
  | _ :: _ => [⟨i, now⟩]

/-- The log has the commit of `rows` after `t`, with the stamp `m`. -/
def HasCommit (x : TimedWorld D Row Stmt Ext Env Err Call α S X T) (t : Timeline D Row)
    (rows : List Row) (m : Stamp T) : Prop :=
  t.commit rows ≤ x.world.timeline ∧ x.stamps[t.length]? = some m

/-- One timed step. -/
def step (E : Engine D Row Stmt Ext Env Err S X)
    (body : Call → Prog (Command Stmt Ext) (fun c => Except Err (c.Res S X)) α)
    (time : Env → T) (x : TimedWorld D Row Stmt Ext Env Err Call α S X T) :
    TimedAction Call Env T → Option (TimedWorld D Row Stmt Ext Env Err Call α S X T)
  | .spawn c now =>
    (x.world.step E body (.spawn c)).map fun w => ⟨w, now, x.arrivals ++ [now], x.stamps⟩
  | .step i env =>
    (x.world.step E body (.step i env)).map fun w =>
      ⟨w, time env, x.arrivals, x.stamps ++ stamp i (time env) (x.world.batch E i env)⟩

/-- The timed world after a list of actions, when each is enabled, passes the check `p` and is
not earlier than the one before it. -/
def exec [LE T] [DecidableLE T] (E : Engine D Row Stmt Ext Env Err S X)
    (body : Call → Prog (Command Stmt Ext) (fun c => Except Err (c.Res S X)) α)
    (time : Env → T) (p : World D Row Stmt Ext Env Err Call α S X → Action Call Env → Bool) :
    TimedWorld D Row Stmt Ext Env Err Call α S X T → List (TimedAction Call Env T) →
      Option (TimedWorld D Row Stmt Ext Env Err Call α S X T)
  | x, [] => some x
  | x, a :: as =>
    if x.clock ≤ a.now time ∧ p x.world a.action = true then
      (x.step E body time a).bind fun x' => x'.exec E body time p as
    else none

end TimedWorld

/-- The timed worlds reached from the database `db` by steps that `ok` allows, each at the
time of the one before it or later. -/
inductive TimedRun [LE T] (E : Engine D Row Stmt Ext Env Err S X)
    (body : Call → Prog (Command Stmt Ext) (fun c => Except Err (c.Res S X)) α)
    (time : Env → T) (ok : World D Row Stmt Ext Env Err Call α S X → Action Call Env → Prop)
    (db : D) : TimedWorld D Row Stmt Ext Env Err Call α S X T → Prop where
  | start (now : T) : TimedRun E body time ok db ⟨World.start (.start db), now, [], []⟩
  | step {x x' : TimedWorld D Row Stmt Ext Env Err Call α S X T} (a : TimedAction Call Env T) :
      TimedRun E body time ok db x → x.clock ≤ a.now time → ok x.world a.action →
      x.step E body time a = some x' → TimedRun E body time ok db x'

section
variable {E : Engine D Row Stmt Ext Env Err S X}
  {body : Call → Prog (Command Stmt Ext) (fun c => Except Err (c.Res S X)) α}
  {time : Env → T} {ok : World D Row Stmt Ext Env Err Call α S X → Action Call Env → Prop}
  {db : D} {x x' : TimedWorld D Row Stmt Ext Env Err Call α S X T}

/-- A session keeps its call and its start. -/
theorem World.session_later {w w' : World D Row Stmt Ext Env Err Call α S X}
    {a : Action Call Env} (h : w.step E body a = some w') {i : Nat}
    {s : Session D Row Stmt Ext Env Err Call α S X} (hs : w.sessions[i]? = some s) :
    ∃ s', w'.sessions[i]? = some s' ∧ s'.call = s.call ∧ s'.born = s.born := by
  have hlt := (List.getElem?_eq_some_iff.mp hs).1
  rcases World.step_cases h with ⟨c, -, rfl⟩ | ⟨j, env, s₁, c, k, -, hj, -, -, -, rfl⟩
  · refine ⟨s, ?_, rfl, rfl⟩
    show (w.sessions ++ _)[i]? = some s
    rw [List.getElem?_append_left hlt, hs]
  · by_cases hij : j = i
    · subst hij
      obtain rfl := Option.some.inj (hj.symm.trans hs)
      exact ⟨_, List.getElem?_set_self hlt, rfl, rfl⟩
    · exact ⟨s, (List.getElem?_set_ne hij).trans hs, rfl, rfl⟩

/-- The two kinds of timed steps. -/
theorem TimedWorld.step_cases {a : TimedAction Call Env T} (h : x.step E body time a = some x') :
    (∃ c now, a = .spawn c now ∧
      x' = ⟨{ x.world with
                sessions := x.world.sessions ++ [⟨c, x.world.timeline, none, .idle, body c⟩] },
              now, x.arrivals ++ [now], x.stamps⟩) ∨
    (∃ i env w, a = .step i env ∧ x.world.step E body (.step i env) = some w ∧
      x' = ⟨w, time env, x.arrivals,
              x.stamps ++ TimedWorld.stamp i (time env) (x.world.batch E i env)⟩) := by
  cases a with
  | spawn c now => exact Or.inl ⟨c, now, rfl, (Option.some.inj h).symm⟩
  | step i env =>
      obtain ⟨w, hw, rfl⟩ := Option.map_eq_some_iff.mp h
      exact Or.inr ⟨i, env, w, rfl, hw, rfl⟩

/-- A timed step is a step. -/
theorem TimedWorld.step_world {a : TimedAction Call Env T} (h : x.step E body time a = some x') :
    x.world.step E body a.action = some x'.world := by
  rcases step_cases h with ⟨c, now, rfl, rfl⟩ | ⟨i, env, w, rfl, hw, rfl⟩
  · rfl
  · exact hw

namespace TimedRun

/-- A timed run is a run. -/
theorem run [LE T] (h : TimedRun E body time ok db x) :
    Run E body ok (World.start (.start db)) x.world := by
  induction h with
  | start now => exact Run.refl
  | step a _ _ hok hstep ih => exact Run.step _ ih hok (TimedWorld.step_world hstep)

/-- It is a run whose commands are not later than its clock. -/
theorem run_until [Preorder T] (h : TimedRun E body time ok db x) {now : T}
    (hnow : x.clock ≤ now) :
    Run E body (fun _ a => ∀ i env, a = .step i env → time env ≤ now) (World.start (.start db))
      x.world := by
  induction h with
  | start now => exact Run.refl
  | @step x x' a _ hclock _ hstep ih =>
      have hlater : a.now time = x'.clock := by
        rcases TimedWorld.step_cases hstep with ⟨c, t, rfl, rfl⟩ | ⟨i, env, w, rfl, -, rfl⟩ <;> rfl
      refine Run.step _ (ih (le_trans hclock (hlater ▸ hnow))) ?_ (TimedWorld.step_world hstep)
      rintro i env ha
      cases a with
      | spawn c t => cases ha
      | step j env' =>
          cases ha
          exact le_trans (le_of_eq hlater) hnow

/-- A list of timed actions that executes is a timed run. -/
theorem of_exec [LE T] [DecidableLE T]
    {p : World D Row Stmt Ext Env Err Call α S X → Action Call Env → Bool}
    (hok : ∀ w a, p w a = true → ok w a) (h : TimedRun E body time ok db x)
    {as : List (TimedAction Call Env T)} (hx : x.exec E body time p as = some x') :
    TimedRun E body time ok db x' := by
  induction as generalizing x with
  | nil =>
      cases hx
      exact h
  | cons a as ih =>
      rw [TimedWorld.exec] at hx
      split at hx
      · rename_i hp
        obtain ⟨x₁, h₁, hx⟩ := Option.bind_eq_some_iff.mp hx
        exact ih (h.step a hp.1 (hok _ _ hp.2) h₁) hx
      · cases hx

/-- A call has an arrival, and a commit has a stamp. -/
theorem lengths [LE T] (h : TimedRun E body time ok db x) :
    x.arrivals.length = x.world.sessions.length ∧
      x.stamps.length = x.world.timeline.length := by
  induction h with
  | start now => exact ⟨rfl, rfl⟩
  | @step x x' a _ _ _ hstep ih =>
      rcases TimedWorld.step_cases hstep with ⟨c, now, rfl, rfl⟩ | ⟨i, env, w, rfl, hw, rfl⟩
      · exact ⟨by simp [ih.1], ih.2⟩
      · rcases World.step_cases hw with ⟨c, ha, -⟩ | ⟨i', env', s, c, k, ha, -, -, -, -, rfl⟩
        · cases ha
        · cases ha
          refine ⟨by simp [ih.1], ?_⟩
          show (x.stamps ++ _).length = (x.world.timeline.publish _).length
          rw [List.length_append, ih.2]
          cases x.world.batch E i env with
          | nil => rfl
          | cons r rows => rfl

section
variable [Preorder T]

/-- The clock has passed every arrival and every stamp. -/
theorem le_clock (h : TimedRun E body time ok db x) :
    (∀ now ∈ x.arrivals, now ≤ x.clock) ∧ ∀ m ∈ x.stamps, m.time ≤ x.clock := by
  induction h with
  | start now => exact ⟨fun _ h => (List.not_mem_nil h).elim, fun _ h => (List.not_mem_nil h).elim⟩
  | @step x x' a _ hclock _ hstep ih =>
      rcases TimedWorld.step_cases hstep with ⟨c, now, rfl, rfl⟩ | ⟨i, env, w, rfl, hw, rfl⟩
      · refine ⟨fun n hn => ?_, fun m hm => le_trans (ih.2 m hm) hclock⟩
        rcases List.mem_append.mp hn with hn | hn
        · exact le_trans (ih.1 n hn) hclock
        · exact le_of_eq (List.mem_singleton.mp hn)
      · refine ⟨fun n hn => le_trans (ih.1 n hn) hclock, fun m hm => ?_⟩
        rcases List.mem_append.mp hm with hm | hm
        · exact le_trans (ih.2 m hm) hclock
        · -- The new stamp has the time of the step.
          cases hb : x.world.batch E i env with
          | nil =>
              rw [hb] at hm
              exact (List.not_mem_nil hm).elim
          | cons r rows =>
              rw [hb] at hm
              obtain rfl := List.mem_singleton.mp hm
              exact le_refl _

/-- A commit that follows the start of a call is not earlier than the arrival of the call. -/
theorem arrival_le (h : TimedRun E body time ok db x) {i n : Nat}
    {s : Session D Row Stmt Ext Env Err Call α S X} {now : T} {m : Stamp T}
    (hs : x.world.sessions[i]? = some s) (hnow : x.arrivals[i]? = some now)
    (hn : s.born.length ≤ n) (hm : x.stamps[n]? = some m) : now ≤ m.time := by
  induction h generalizing s with
  | start now => simp [World.start] at hs
  | @step x x' a hx hclock _ hstep ih =>
      rcases TimedWorld.step_cases hstep with ⟨c, t, rfl, rfl⟩ | ⟨j, env, w, rfl, hw, rfl⟩
      · rcases getElem?_snoc_cases hs with hi | ⟨rfl, rfl⟩
        · have hlt : i < x.arrivals.length := by
            rw [hx.lengths.1]
            exact (List.getElem?_eq_some_iff.mp hi).1
          rw [List.getElem?_append_left hlt] at hnow
          exact ih hi hnow hn hm
        · -- No stamp follows the start of the new call.
          have hlt := (List.getElem?_eq_some_iff.mp hm).1
          rw [hx.lengths.2] at hlt
          exact absurd hlt (Nat.not_lt.mpr hn)
      · have hlt : i < x.world.sessions.length := by
          rw [← hx.lengths.1]
          exact (List.getElem?_eq_some_iff.mp hnow).1
        obtain ⟨s₁, hs₁, -, hborn⟩ := World.session_later hw (List.getElem?_eq_getElem hlt)
        obtain rfl := Option.some.inj (hs.symm.trans hs₁)
        by_cases hmlt : n < x.stamps.length
        · rw [List.getElem?_append_left hmlt] at hm
          exact ih (List.getElem?_eq_getElem hlt) hnow (hborn ▸ hn) hm
        · -- The stamp of this step.
          rw [List.getElem?_append_right (Nat.not_lt.mp hmlt)] at hm
          have htime : m.time = time env := by
            cases hb : x.world.batch E j env with
            | nil => simp [hb, TimedWorld.stamp] at hm
            | cons r rows =>
                rw [hb] at hm
                exact congrArg Stamp.time (List.mem_singleton.mp (List.mem_of_getElem? hm))
          rw [htime]
          exact le_trans (hx.le_clock.1 now (List.mem_of_getElem? hnow)) hclock

end

/-- The step from which the commit of `rows` after `t` comes: at the world `w` of the run, the
session `i` in the environment `env`. The stamp of the commit names the session and the time.
At the end of the run the session still has its call and its start. -/
structure Origin [LE T] (E : Engine D Row Stmt Ext Env Err S X)
    (body : Call → Prog (Command Stmt Ext) (fun c => Except Err (c.Res S X)) α)
    (time : Env → T) (ok : World D Row Stmt Ext Env Err Call α S X → Action Call Env → Prop)
    (db : D) (x : TimedWorld D Row Stmt Ext Env Err Call α S X T) (t : Timeline D Row)
    (rows : List Row) (w : World D Row Stmt Ext Env Err Call α S X) (i : Nat) (env : Env)
    (s s' : Session D Row Stmt Ext Env Err Call α S X) : Prop where
  run : Run E body ok (World.start (.start db)) w
  allowed : ok w (.step i env)
  moment : w.timeline = t
  session : w.sessions[i]? = some s
  batch : w.batch E i env = rows
  nonempty : rows ≠ []
  stamp : x.stamps[t.length]? = some ⟨i, time env⟩
  later : x.world.sessions[i]? = some s'
  call : s'.call = s.call
  born : s'.born = s.born

/-- Every commit of the log has an origin. -/
theorem commit_origin [LE T] (h : TimedRun E body time ok db x) {t : Timeline D Row}
    {rows : List Row} (ht : t.commit rows ≤ x.world.timeline) :
    ∃ w i env s s', Origin E body time ok db x t rows w i env s s' := by
  induction h with
  | start now => exact nomatch Timeline.le_start_iff.mp ht
  | @step x x' a hx _ hok hstep ih =>
      have hworld := TimedWorld.step_world hstep
      -- A commit of the log before the step keeps its origin.
      have hold : t.commit rows ≤ x.world.timeline → (∃ l, x'.stamps = x.stamps ++ l) →
          ∃ w i env s s', Origin E body time ok db x' t rows w i env s s' := by
        rintro ht ⟨l, hl⟩
        obtain ⟨w, i, env, s, s', ho⟩ := ih ht
        obtain ⟨s'', hs'', hcall, hborn⟩ := World.session_later hworld ho.later
        refine ⟨w, i, env, s, s'', ho.run, ho.allowed, ho.moment, ho.session, ho.batch,
          ho.nonempty, ?_, hs'', hcall.trans ho.call, hborn.trans ho.born⟩
        rw [hl, List.getElem?_append_left (List.getElem?_eq_some_iff.mp ho.stamp).1]
        exact ho.stamp
      rcases TimedWorld.step_cases hstep with ⟨c, now, rfl, rfl⟩ | ⟨i, env, w, rfl, hw, rfl⟩
      · exact hold ht ⟨[], (List.append_nil _).symm⟩
      · rcases World.step_cases hw with ⟨c, ha, -⟩ | ⟨i', env', s, c, k, ha, hs, -, -, -, rfl⟩
        · cases ha
        cases ha
        rcases Timeline.commit_le_publish ht with ht | ⟨rfl, rfl, hne⟩
        · exact hold ht ⟨_, rfl⟩
        · -- The commit of this step.
          obtain ⟨s', hs', hcall, hborn⟩ := World.session_later hworld hs
          refine ⟨x.world, i, env, s, s', hx.run, hok, rfl, hs, rfl, hne, ?_, hs', hcall, hborn⟩
          show (x.stamps ++ TimedWorld.stamp i (time env) (x.world.batch E i env))[_]? = _
          rw [← hx.lengths.2, List.getElem?_append_right (Nat.le_refl _), Nat.sub_self]
          cases hb : x.world.batch E i env with
          | nil => exact absurd hb hne
          | cons r rows => rfl

end TimedRun

end

end ReadCommitted
