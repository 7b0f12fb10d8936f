import Mathlib.Algebra.GroupWithZero.Nat
import Vanguard.Library.Discipline

/-!
# `Vanguard.Library.Schedules`: programs of bounded length, and how runs end

`Prog.Within n` says that a program makes at most `n` calls, whatever it is answered. The rules
compute the bound of a program from its parts.

A schedule is a list of steps of the sessions of a world, without new calls.
`World.schedule_le` bounds every schedule and its steps in each session, and `World.Orderly.drains` puts it together
with `World.Orderly.progress`: in every environment some schedule ends with every call finished.
-/

set_option autoImplicit false

namespace ReadCommitted

/-! ### Programs of bounded length -/

section
variable {C : Type} {R : C → Type} {α β : Type}

/-- Every path of the program makes at most `n` calls. -/
def Prog.Within : Nat → Prog C R α → Prop
  | _, .ret _ => True
  | 0, .call _ _ => False
  | n + 1, .call _ k => ∀ r, (k r).Within n

/-- A return makes no call. -/
theorem Prog.within_ret (n : Nat) (a : α) : (Prog.ret a : Prog C R α).Within n := by
  cases n <;> exact trivial

/-- A bound may be raised. -/
theorem Prog.Within.mono {m n : Nat} {p : Prog C R α} (h : p.Within m) (hmn : m ≤ n) :
    p.Within n := by
  induction p generalizing m n with
  | ret a => exact Prog.within_ret n a
  | call c k ih =>
      cases m with
      | zero => exact h.elim
      | succ m =>
          cases n with
          | zero => omega
          | succ n => exact fun r => ih r (h r) (by omega)

/-- A sequence makes no more calls than its parts together. -/
theorem Prog.Within.bind {m n : Nat} {p : Prog C R α} {f : α → Prog C R β} (hp : p.Within m)
    (hf : ∀ a, (f a).Within n) : (p >>= f).Within (m + n) := by
  induction p generalizing m with
  | ret a => exact (hf a).mono (by omega)
  | call c k ih =>
      cases m with
      | zero => exact hp.elim
      | succ m =>
          rw [Nat.succ_add]
          exact fun r => ih r (hp r)

end

section
variable {C : Type} {Res : C → Type} {Err : Type} {α β : Type} {m n : Nat}

/-- A return awaits nothing. -/
theorem Await.within_pure (a : α) : (pure a : Await C Res Err α).run.Within n :=
  Prog.within_ret n _

/-- A throw awaits nothing. -/
theorem Await.within_throw (e : Err) : (throw e : Await C Res Err α).run.Within n :=
  Prog.within_ret n _

/-- Awaiting a call is one call. -/
theorem Await.within_await (c : C) : (Await.await c : Await C Res Err (Res c)).run.Within 1 :=
  fun _ => trivial

/-- A sequence awaits no more calls than its parts together. -/
theorem Await.within_bind {p : Await C Res Err α} {f : α → Await C Res Err β}
    (hp : p.run.Within m) (hf : ∀ a, (f a).run.Within n) : (p >>= f).run.Within (m + n) := by
  refine Prog.Within.bind hp fun r => ?_
  -- The program goes on or has thrown.
  cases r with
  | ok a => exact hf a
  | error e => exact Prog.within_ret n _

/-- A part of one call, then the rest. -/
theorem Await.within_step {p : Await C Res Err α} {f : α → Await C Res Err β}
    (hp : p.run.Within 1) (hf : ∀ a, (f a).run.Within n) : (p >>= f).run.Within (n + 1) :=
  Nat.add_comm n 1 ▸ Await.within_bind hp hf

/-- A `try`/`catch`/`finally` awaits no more calls than its three blocks together. -/
theorem Await.within_tryFinally {l : Nat} {body : Await C Res Err α}
    {handler : Err → Await C Res Err α} {fin : Await C Res Err Unit} (hbody : body.run.Within l)
    (hhandler : ∀ e, (handler e).run.Within m) (hfin : fin.run.Within n) :
    (Await.tryFinally body handler fin).run.Within (l + m + n) := by
  refine Prog.Within.bind (Prog.Within.bind hbody fun r => ?_) fun r => ?_
  · cases r with
    | ok a => exact Prog.within_ret m _
    | error e => exact hhandler e
  · refine Prog.Within.bind (n := 0) hfin fun f => ?_
    cases f <;> exact trivial

end

/-! ### Schedules -/

/-- Lowering one number of a list by one lowers the sum by one. -/
theorem sum_set_pred {ns : List Nat} {i m : Nat} (h : ns[i]? = some (m + 1)) :
    (ns.set i m).sum + 1 = ns.sum := by
  induction ns generalizing i with
  | nil => simp at h
  | cons n ns ih =>
      cases i with
      | zero =>
          obtain rfl : n = m + 1 := by simpa using h
          simp only [List.set_cons_zero, List.sum_cons]
          omega
      | succ i =>
          have := ih (i := i) (by simpa using h)
          simp only [List.set_cons_succ, List.sum_cons]
          omega

/-- Lowering the number of one place by one lowers no other number. -/
theorem getD_set_pred {ns : List Nat} {i m : Nat} (h : ns[i]? = some (m + 1)) (j : Nat) :
    (ns.set i m).getD j 0 + (if i = j then 1 else 0) = ns.getD j 0 := by
  have hlt : i < ns.length := (List.getElem?_eq_some_iff.mp h).1
  rw [List.getD_eq_getElem?_getD, List.getD_eq_getElem?_getD, List.getElem?_set]
  by_cases hij : i = j
  · subst hij
    rw [h]
    simp [hlt]
  · simp [hij]

section
variable {D Row Stmt Ext Env Err Call α : Type} {S : Stmt → Type} {X : Ext → Type}
  [Store D Row] {E : Engine D Row Stmt Ext Env Err S X}
  {body : Call → Prog (Command Stmt Ext) (fun c => Except Err (c.Res S X)) α}
  {w w' : World D Row Stmt Ext Env Err Call α S X}

/-- The world after a list of steps of its sessions, each in its own environment. -/
def World.schedule (E : Engine D Row Stmt Ext Env Err S X)
    (body : Call → Prog (Command Stmt Ext) (fun c => Except Err (c.Res S X)) α)
    (w : World D Row Stmt Ext Env Err Call α S X) :
    List (Nat × Env) → Option (World D Row Stmt Ext Env Err Call α S X)
  | [] => some w
  | p :: ps => (w.step E body (.step p.1 p.2)).bind fun w' => w'.schedule E body ps

/-- The bounds `ns` of what is left of the sessions. -/
def World.Left (w : World D Row Stmt Ext Env Err Call α S X) (ns : List Nat) : Prop :=
  w.sessions.length = ns.length ∧
    ∀ (i : Nat) s n, w.sessions[i]? = some s → ns[i]? = some n → s.prog.Within n

/-- A step takes one call off the bound of its session. -/
theorem World.Left.step {ns : List Nat} (h : w.Left ns) {i : Nat} {env : Env}
    (hs : w.step E body (.step i env) = some w') :
    ∃ m, ns[i]? = some (m + 1) ∧ w'.Left (ns.set i m) := by
  rcases World.step_cases hs with ⟨c, ha, -⟩ | ⟨i, env, s, c, k, ha, hi, hk, -, -, rfl⟩
  · cases ha
  · cases ha
    have hlt : i < ns.length := h.1 ▸ (List.getElem?_eq_some_iff.mp hi).1
    have hn : ns[i]? = some ns[i] := List.getElem?_eq_getElem hlt
    have hwithin := h.2 i s _ hi hn
    rw [hk] at hwithin
    cases hb : ns[i] with
    | zero =>
        -- The session has a call to make, so its bound is a successor.
        rw [hb] at hwithin
        exact hwithin.elim
    | succ m =>
        rw [hb] at hn hwithin
        refine ⟨m, hn, by simpa using h.1, ?_⟩
        intro j s' n' hj hn'
        rw [List.getElem?_set] at hj hn'
        split at hj
        · rename_i hij
          rw [if_pos hij, if_pos hlt] at hn'
          split at hj
          · cases hj
            cases hn'
            exact hwithin _
          · cases hj
        · rename_i hij
          rw [if_neg hij] at hn'
          exact h.2 j s' n' hj hn'

/-- The number of steps that a schedule makes in session `i`. -/
def stepsOf (i : Nat) (sched : List (Nat × Env)) : Nat := sched.countP fun p => p.1 == i

/-- The first step of a schedule counts for its own session. -/
theorem stepsOf_cons (i : Nat) (p : Nat × Env) (ps : List (Nat × Env)) :
    stepsOf i (p :: ps) = stepsOf i ps + if p.1 = i then 1 else 0 := by
  simp only [stepsOf, List.countP_cons, beq_iff_eq]

/-- A schedule takes its length off the bounds, and its steps of each session off the bound of
that session. -/
theorem World.Left.schedule {sched : List (Nat × Env)} {ns : List Nat} (h : w.Left ns)
    (hs : w.schedule E body sched = some w') :
    ∃ ns', w'.Left ns' ∧ ns'.sum + sched.length = ns.sum ∧
      ∀ i, ns'.getD i 0 + stepsOf i sched = ns.getD i 0 := by
  induction sched generalizing w ns with
  | nil =>
      cases hs
      exact ⟨ns, h, rfl, fun i => rfl⟩
  | cons p ps ih =>
      obtain ⟨w₁, h₁, hs⟩ := Option.bind_eq_some_iff.mp hs
      obtain ⟨m, hm, hl₁⟩ := h.step h₁
      obtain ⟨ns₂, hl₂, hsum, hsteps⟩ := ih hl₁ hs
      have hset := sum_set_pred hm
      refine ⟨ns₂, hl₂, by simp only [List.length_cons]; omega, fun i => ?_⟩
      have hi := hsteps i
      have hpred := getD_set_pred hm i
      rw [stepsOf_cons]
      omega

/-- One bound for the programs of all calls bounds what is left of every session. -/
theorem Run.within {ok : World D Row Stmt Ext Env Err Call α S X → Action Call Env → Prop}
    {t : Timeline D Row} {n : Nat} (hbody : ∀ w c, ok w (.spawn c) → (body c).Within n)
    (h : Run E body ok (World.start t) w) : ∀ s ∈ w.sessions, s.prog.Within n := by
  induction h with
  | refl => exact fun s hs => absurd hs List.not_mem_nil
  | @step w w' a _ ha hs ih =>
      rcases World.step_cases hs with ⟨c, rfl, rfl⟩ | ⟨i, env, s, c, k, -, hi, hk, -, -, rfl⟩
      · intro s hs
        rcases List.mem_append.mp hs with hs | hs
        · exact ih s hs
        · obtain rfl := List.mem_singleton.mp hs
          exact hbody w c ha
      · intro s' hs'
        rcases List.mem_or_eq_of_mem_set hs' with hs' | rfl
        · exact ih s' hs'
        · have hwithin := ih s (List.mem_of_getElem? hi)
          rw [hk] at hwithin
          cases n with
          | zero => exact hwithin.elim
          | succ n => exact (hwithin _).mono (Nat.le_succ n)

omit [Store D Row] in
/-- One bound for every session. -/
theorem World.left_replicate {n : Nat} (h : ∀ s ∈ w.sessions, s.prog.Within n) :
    w.Left (List.replicate w.sessions.length n) := by
  refine ⟨by simp, fun i s m hi hm => ?_⟩
  obtain rfl := List.eq_of_mem_replicate (List.mem_of_getElem? hm)
  exact h s (List.mem_of_getElem? hi)

/-- No schedule is longer than the bounds of the sessions together, and none makes more steps
in a session than its bound. -/
theorem World.schedule_le {n : Nat} (h : ∀ s ∈ w.sessions, s.prog.Within n)
    {sched : List (Nat × Env)} (hs : w.schedule E body sched = some w') :
    sched.length ≤ w.sessions.length * n ∧ ∀ i, stepsOf i sched ≤ n := by
  obtain ⟨ns, -, hsum, hsteps⟩ := (World.left_replicate h).schedule hs
  rw [List.sum_replicate_nat] at hsum
  refine ⟨by omega, fun i => ?_⟩
  have hi := hsteps i
  have hbound : (List.replicate w.sessions.length n).getD i 0 ≤ n := by
    rw [List.getD_eq_getElem?_getD, List.getElem?_replicate]
    split <;> simp
  omega

/-- A schedule keeps an orderly world orderly. -/
theorem World.Orderly.schedule [LawfulStore D Row] {d : Discipline E Call α}
    {sched : List (Nat × Env)} (h : w.Orderly d) (hs : w.schedule E body sched = some w') :
    w'.Orderly d := by
  induction sched generalizing w with
  | nil =>
      cases hs
      exact h
  | cons p ps ih =>
      obtain ⟨w₁, h₁, hs⟩ := Option.bind_eq_some_iff.mp hs
      exact ih (h.step h₁ fun c hc => nomatch hc) hs

/-- From an orderly world, whatever the environments are, some schedule ends with every call
finished. -/
theorem World.Orderly.drains [LawfulStore D Row] {o : LockOrder E Call α}
    (h : w.Orderly o.toDiscipline) {ns : List Nat} (hl : w.Left ns) (envs : Nat → Env) :
    ∃ sched w', w.schedule E body sched = some w' ∧ w'.quiescent = true ∧
      ∀ (n : Nat) p, sched[n]? = some p → p.2 = envs n := by
  -- By induction on the bounds, which every step lowers.
  generalize hsum : ns.sum = total
  induction total using Nat.strong_induction_on generalizing w ns envs with
  | _ total ih =>
      cases hq : w.quiescent with
      | true => exact ⟨[], w, rfl, hq, by simp⟩
      | false =>
          obtain ⟨i, hi⟩ : ∃ i, ∀ env, (w.step E body (.step i env)).isSome = true :=
            h.progress hq
          obtain ⟨w₁, h₁⟩ := Option.isSome_iff_exists.mp (hi (envs 0))
          obtain ⟨m, hm, hl₁⟩ := hl.step h₁
          have hsum₁ := sum_set_pred hm
          obtain ⟨sched, w₂, h₂, hq₂, henvs⟩ := ih (ns.set i m).sum (by omega)
            (h.step h₁ fun c hc => nomatch hc) hl₁ (fun n => envs (n + 1)) rfl
          refine ⟨(i, envs 0) :: sched, w₂, ?_, hq₂, ?_⟩
          · rw [World.schedule, h₁]
            exact h₂
          · intro n p hp
            cases n with
            | zero =>
                cases hp
                rfl
            | succ n => exact henvs n p hp

end

end ReadCommitted
