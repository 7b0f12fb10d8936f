import Vanguard.Library.Alone
import Mathlib.Data.List.Count

/-!
# `Vanguard.Library.Pool`: programs that share a pool of connections

A pool has `max` connections and an unbounded queue. A program takes one with `connect` and
holds it until `release`. A statement to the pool takes one for itself and gives it back with
its answer. `PoolUse` says what a command does with the pool. Answers are arbitrary: an
action carries an oracle, so the runs of a `PoolWorld` contain those of every database.

`Deadlocked` says that no connection is free and every call that is not finished waits for
one. `PoolRun.canStep` is the result: no run deadlocks whose calls are `Disciplined` and in
which no grant of a client leaves the pool `Starved`, with every connection held by a call
that may still send a statement to the pool.
-/

set_option autoImplicit false

namespace ConnectionPool

open ReadCommitted

/-- What a command does with the pool: take a client, give it back, use it, send a statement
to the pool, or nothing. -/
inductive PoolUse where
  | connect
  | release
  | client
  | pool
  | free
  deriving DecidableEq

variable {C : Type} {Res : C → Type} {Err α Call : Type}

/-- A call: its remaining program, whether it holds a client, and whether its statement to the
pool has a connection. -/
structure PoolSession (C : Type) (Res : C → Type) (Err α : Type) where
  prog : Prog C (fun c => Except Err (Res c)) α
  holds : Bool
  querying : Bool

/-- The calls, started and finished. -/
abbrev PoolWorld (C : Type) (Res : C → Type) (Err α : Type) :=
  List (PoolSession C Res Err α)

/-- A call starts, the statement of the call `i` gets its connection, or the command of the
call `i` is answered. -/
inductive PoolAction (C : Type) (Res : C → Type) (Err Call : Type) where
  | spawn (call : Call)
  | acquire (i : Nat)
  | answer (i : Nat) (oracle : (c : C) → Except Err (Res c))

/-- The connections that are held as clients. -/
def PoolWorld.clients (w : PoolWorld C Res Err α) : Nat := w.countP fun s => s.holds

/-- The connections in use. -/
def PoolWorld.used (w : PoolWorld C Res Err α) : Nat :=
  w.clients + w.countP fun s => s.querying

/-- The answer is not an error. -/
def granted {A : Type} : Except Err A → Bool
  | .ok _ => true
  | .error _ => false

/-- One step of the world, `none` when the action is not enabled. -/
def PoolWorld.step (use : C → PoolUse) (max : Nat)
    (body : Call → Prog C (fun c => Except Err (Res c)) α) (w : PoolWorld C Res Err α) :
    PoolAction C Res Err Call → Option (PoolWorld C Res Err α)
  | .spawn call => some (w ++ [⟨body call, false, false⟩])
  | .acquire i =>
    match w[i]? with
    | some ⟨.call c k, holds, false⟩ =>
      if use c = .pool ∧ w.used < max then some (w.set i ⟨.call c k, holds, true⟩) else none
    | _ => none
  | .answer i oracle =>
    match w[i]? with
    | some ⟨.call c k, holds, querying⟩ =>
      match use c with
      | .connect =>
        if w.used < max then some (w.set i ⟨k (oracle c), holds || granted (oracle c), querying⟩)
        else none
      | .pool => if querying then some (w.set i ⟨k (oracle c), holds, false⟩) else none
      | .release => some (w.set i ⟨k (oracle c), false, querying⟩)
      | .client | .free => some (w.set i ⟨k (oracle c), holds, querying⟩)
    | _ => none

/-- The worlds reached from the empty one by steps that `ok` allows. -/
inductive PoolRun (use : C → PoolUse) (max : Nat)
    (body : Call → Prog C (fun c => Except Err (Res c)) α)
    (ok : PoolWorld C Res Err α → PoolAction C Res Err Call → Prop) :
    PoolWorld C Res Err α → Prop where
  | start : PoolRun use max body ok []
  | step {w w' : PoolWorld C Res Err α} (a : PoolAction C Res Err Call) :
      PoolRun use max body ok w → ok w a → w.step use max body a = some w' →
      PoolRun use max body ok w'

/-- The world after a list of actions, when each is enabled and passes the check `p`. -/
def PoolWorld.exec (use : C → PoolUse) (max : Nat)
    (body : Call → Prog C (fun c => Except Err (Res c)) α)
    (p : PoolWorld C Res Err α → PoolAction C Res Err Call → Bool) :
    PoolWorld C Res Err α → List (PoolAction C Res Err Call) → Option (PoolWorld C Res Err α)
  | w, [] => some w
  | w, a :: as =>
    if p w a then (w.step use max body a).bind fun w' => PoolWorld.exec use max body p w' as
    else none

/-- A schedule whose steps all pass a check extends a run whose steps meet the condition
the check decides. -/
theorem PoolRun.of_exec {use : C → PoolUse} {max : Nat}
    {body : Call → Prog C (fun c => Except Err (Res c)) α}
    {ok : PoolWorld C Res Err α → PoolAction C Res Err Call → Prop}
    {p : PoolWorld C Res Err α → PoolAction C Res Err Call → Bool}
    (hok : ∀ w a, p w a = true → ok w a) {w w' : PoolWorld C Res Err α}
    (hw : PoolRun use max body ok w) {as : List (PoolAction C Res Err Call)}
    (h : w.exec use max body p as = some w') : PoolRun use max body ok w' := by
  induction as generalizing w with
  | nil =>
      cases h
      exact hw
  | cons a as ih =>
      rw [PoolWorld.exec] at h
      split at h
      · rename_i hp
        obtain ⟨w₁, h₁, h⟩ := Option.bind_eq_some_iff.mp h
        exact ih (hw.step a (hok w a hp) h₁) h
      · cases h

/-! ### Deadlock -/

/-- The call waits for a connection. -/
def PoolSession.waits (use : C → PoolUse) (s : PoolSession C Res Err α) : Bool :=
  match s.prog with
  | .ret _ => false
  | .call c _ => !s.querying && (use c == .connect || use c == .pool)

/-- Some call is not finished, no connection is free, and every call that is not finished
waits for one. -/
def Deadlocked (use : C → PoolUse) (max : Nat) (w : PoolWorld C Res Err α) : Prop :=
  (∃ s ∈ w, s.prog.finished = false) ∧ max ≤ w.used ∧
    ∀ s ∈ w, s.prog.finished = false → s.waits use = true

/-- A deadlock of the pool can be decided, by looking at every session. -/
instance (use : C → PoolUse) (max : Nat) (w : PoolWorld C Res Err α) :
    Decidable (Deadlocked use max w) :=
  inferInstanceAs (Decidable (_ ∧ _ ∧ _))

/-- The call `i` can take a step: its statement can get a connection, or its command can be
answered, whatever the answer is. -/
def CanStep (use : C → PoolUse) (max : Nat)
    (body : Call → Prog C (fun c => Except Err (Res c)) α) (w : PoolWorld C Res Err α)
    (i : Nat) : Prop :=
  (∃ w', w.step use max body (.acquire i) = some w') ∨
    ∀ oracle, ∃ w', w.step use max body (.answer i oracle) = some w'

section

variable {use : C → PoolUse} {max : Nat}
  {body : Call → Prog C (fun c => Except Err (Res c)) α} {w : PoolWorld C Res Err α}

/-- In a deadlock no call can take a step. -/
theorem Deadlocked.stuck (h : Deadlocked use max w) (i : Nat)
    (oracle : (c : C) → Except Err (Res c)) :
    w.step use max body (.acquire i) = none ∧ w.step use max body (.answer i oracle) = none := by
  obtain ⟨-, hfull, hwaits⟩ := h
  constructor
  · simp only [PoolWorld.step]
    split
    · rw [if_neg fun hfree => absurd hfree.2 (Nat.not_lt.mpr hfull)]
    · rfl
  · simp only [PoolWorld.step]
    split
    · -- The command waits for a connection, so it is not answered.
      rename_i c k holds querying hi
      have hs := hwaits _ (List.mem_of_getElem? hi) rfl
      simp only [PoolSession.waits, Bool.and_eq_true, Bool.not_eq_true', Bool.or_eq_true,
        beq_iff_eq] at hs
      rcases hs.2 with hc | hc
      · rw [hc]
        exact if_neg (Nat.not_lt.mpr hfull)
      · rw [hc]
        exact if_neg (by rw [hs.1]; exact Bool.false_ne_true)
    · rfl

/-- A call that is not finished can take a step, or waits for a connection and none is free. -/
theorem canStep_or_waits {i : Nat} {s : PoolSession C Res Err α} (hi : w[i]? = some s)
    (hs : s.prog.finished = false)
    (hquerying : s.querying = true → ∃ c k, s.prog = .call c k ∧ use c = .pool) :
    CanStep use max body w i ∨ max ≤ w.used ∧ s.waits use = true := by
  obtain ⟨prog, holds, querying⟩ := s
  cases prog with
  | ret a => cases hs
  | call c k =>
      simp only [CanStep, PoolWorld.step, PoolSession.waits, hi]
      cases hc : use c with
      | release | client | free => exact Or.inl (Or.inr fun oracle => ⟨_, rfl⟩)
      | connect =>
          cases querying with
          | true =>
              -- Only a statement to the pool has a connection of its own.
              obtain ⟨c', k', hprog, hpool⟩ := hquerying rfl
              cases hprog
              rw [hc] at hpool
              cases hpool
          | false =>
              by_cases hfree : w.used < max
              · exact Or.inl (Or.inr fun oracle => ⟨_, if_pos hfree⟩)
              · exact Or.inr ⟨Nat.not_lt.mp hfree, rfl⟩
      | pool =>
          cases querying with
          | true => exact Or.inl (Or.inr fun oracle => ⟨_, rfl⟩)
          | false =>
              by_cases hfree : w.used < max
              · exact Or.inl (Or.inl ⟨_, if_pos ⟨hc, hfree⟩⟩)
              · exact Or.inr ⟨Nat.not_lt.mp hfree, rfl⟩

end

/-! ### Discipline -/

/-- The predicate transformer of a command on whether the call holds a client: `connect` is
not called with a client held, the client is used and released only when it is held, and
every answer is possible. -/
def discipline (use : C → PoolUse) (c : C) (holds : Bool)
    (K : Bool → Except Err (Res c) → Prop) : Prop :=
  match use c with
  | .connect => holds = false ∧ ∀ r, K (granted r) r
  | .release => holds = true ∧ ∀ r, K false r
  | .client => holds = true ∧ ∀ r, K true r
  | .pool | .free => ∀ r, K holds r

/-- The program uses at most one client at a time, and has released it when it ends. -/
def Disciplined (use : C → PoolUse) (p : Prog C (fun c => Except Err (Res c)) α)
    (holds : Bool) : Prop :=
  p.wp (discipline use) holds fun _ holds' => holds' = false

section

variable {use : C → PoolUse} {c : C}
  {k : Except Err (Res c) → Prog C (fun c => Except Err (Res c)) α}
  {holds : Bool}

/-- A disciplined call that connects holds no client, and goes on with what it was
granted. -/
theorem Disciplined.connect (h : Disciplined use (.call c k) holds) (hc : use c = .connect) :
    holds = false ∧ ∀ r, Disciplined use (k r) (granted r) := by
  simp only [Disciplined, Prog.wp_call, discipline, hc] at h
  exact h

/-- A disciplined call that releases holds a client, and goes on without one. -/
theorem Disciplined.release (h : Disciplined use (.call c k) holds) (hc : use c = .release) :
    holds = true ∧ ∀ r, Disciplined use (k r) false := by
  simp only [Disciplined, Prog.wp_call, discipline, hc] at h
  exact h

/-- A command that neither takes nor releases a client. -/
theorem Disciplined.keep (h : Disciplined use (.call c k) holds) (hc : use c ≠ .connect)
    (hc' : use c ≠ .release) (r : Except Err (Res c)) : Disciplined use (k r) holds := by
  simp only [Disciplined, Prog.wp_call, discipline] at h
  cases huse : use c with
  | connect => exact absurd huse hc
  | release => exact absurd huse hc'
  | client =>
      simp only [huse] at h
      rw [h.1]
      exact h.2 r
  | pool | free =>
      simp only [huse] at h
      exact h r

end

/-- The program may still send a statement to the pool before it releases its client. -/
inductive MayNest (use : C → PoolUse) : Prog C (fun c => Except Err (Res c)) α → Prop where
  | here {c : C} {k : Except Err (Res c) → Prog C (fun c => Except Err (Res c)) α}
      (hc : use c = .pool) : MayNest use (.call c k)
  | later {c : C} {k : Except Err (Res c) → Prog C (fun c => Except Err (Res c)) α}
      (r : Except Err (Res c)) (hc : use c ≠ .release) (h : MayNest use (k r)) :
      MayNest use (.call c k)

/-- Every connection is held as a client by a call that may still send a statement to the
pool. -/
def Starved (use : C → PoolUse) (max : Nat) (w : PoolWorld C Res Err α) : Prop :=
  max ≤ w.clients ∧ ∀ s ∈ w, s.holds = true → MayNest use s.prog

/-- The action hands a client to a call. -/
def Grants (use : C → PoolUse) (w : PoolWorld C Res Err α) :
    PoolAction C Res Err Call → Bool
  | .answer i oracle =>
    match w[i]? with
    | some ⟨.call c _, _, _⟩ => use c == .connect && granted (oracle c)
    | _ => false
  | .spawn _ | .acquire _ => false

/-- No grant of a client leaves the pool starved. -/
def FedStep (use : C → PoolUse) (max : Nat)
    (body : Call → Prog C (fun c => Except Err (Res c)) α) (w : PoolWorld C Res Err α)
    (a : PoolAction C Res Err Call) : Prop :=
  Grants use w a = true → ∀ w', w.step use max body a = some w' → ¬ Starved use max w'

/-- What holds of the calls in every run: no more connections than there are, each call
disciplined, the connection of a statement to the pool only while it is under way, and the
pool not starved. -/
structure Sound (use : C → PoolUse) (max : Nat) (w : PoolWorld C Res Err α) : Prop where
  bound : w.used ≤ max
  disciplined : ∀ s ∈ w, Disciplined use s.prog s.holds
  asked : ∀ s ∈ w, s.querying = true → ∃ c k, s.prog = .call c k ∧ use c = .pool
  fed : ¬ Starved use max w

section

variable {use : C → PoolUse} {max : Nat}
  {body : Call → Prog C (fun c => Except Err (Res c)) α} {w : PoolWorld C Res Err α}

/-- In a deadlock every client is held by a call that waits for the pool. -/
theorem Sound.not_deadlocked (h : Sound use max w) : ¬ Deadlocked use max w := by
  intro ⟨_, hfull, hwaits⟩
  -- A call whose statement has its connection does not wait.
  have hidle : (w.countP fun s => s.querying) = 0 := by
    rw [List.countP_eq_zero]
    intro s hs hquerying
    obtain ⟨c, k, hprog, -⟩ := h.asked s hs hquerying
    have := hwaits s hs (by rw [hprog]; rfl)
    simp [PoolSession.waits, hprog, hquerying] at this
  refine h.fed ⟨?_, fun s hs hholds => ?_⟩
  · rw [PoolWorld.used, hidle, Nat.add_zero] at hfull
    exact hfull
  · have hdisciplined := h.disciplined s hs
    obtain ⟨prog, holds, querying⟩ := s
    obtain rfl : holds = true := hholds
    cases prog with
    -- A call that has ended has released its client.
    | ret a => cases (show true = false from hdisciplined)
    | call c k =>
        have hwait := hwaits _ hs rfl
        simp only [PoolSession.waits, Bool.and_eq_true, Bool.or_eq_true, beq_iff_eq] at hwait
        rcases hwait.2 with hc | hc
        · -- A call that holds a client does not ask for another one.
          exact absurd (hdisciplined.connect hc).1 Bool.noConfusion
        · exact .here hc

/-- The calls after one of them has changed. -/
theorem mem_set_cases {i : Nat} {s' t : PoolSession C Res Err α} (h : t ∈ w.set i s') :
    t = s' ∨ t ∈ w := by
  rcases List.mem_or_eq_of_mem_set h with h | h
  · exact Or.inr h
  · exact Or.inl h

/-- The count after one call has changed. -/
theorem countP_set_add (p : PoolSession C Res Err α → Bool) {i : Nat}
    {s : PoolSession C Res Err α} (hi : w[i]? = some s) (s' : PoolSession C Res Err α) :
    (w.set i s').countP p + (p s).toNat = w.countP p + (p s').toNat := by
  induction w generalizing i with
  | nil => cases hi
  | cons t w ih =>
      cases i with
      | zero =>
          cases hi
          rw [List.set_cons_zero, List.countP_cons, List.countP_cons]
          cases p s <;> cases p s' <;> simp
      | succ i =>
          have := ih hi
          rw [List.set_cons_succ, List.countP_cons, List.countP_cons]
          omega

section

variable {i : Nat} {s s' : PoolSession C Res Err α}

/-- A call changes, and uses no more connections than before, or one of those that are free. -/
theorem used_set_le (hi : w[i]? = some s) (h : w.used ≤ max)
    (hs : s'.holds.toNat + s'.querying.toNat ≤ s.holds.toNat + s.querying.toNat ∨
      w.used < max ∧
        s'.holds.toNat + s'.querying.toNat ≤ s.holds.toNat + s.querying.toNat + 1) :
    PoolWorld.used (w.set i s') ≤ max := by
  have hholds := countP_set_add (fun s => s.holds) hi s'
  have hquerying := countP_set_add (fun s => s.querying) hi s'
  unfold PoolWorld.used PoolWorld.clients at h hs ⊢
  omega

/-- A call that keeps its client, or has none, does not starve the pool. -/
theorem Starved.of_set (h : Starved use max (w.set i s')) (hi : w[i]? = some s)
    (hholds : s'.holds = s.holds)
    (hnest : s.holds = true → MayNest use s'.prog → MayNest use s.prog) : Starved use max w := by
  obtain ⟨hfull, hall⟩ := h
  constructor
  · have hcount := countP_set_add (fun s => s.holds) hi s'
    rw [hholds] at hcount
    unfold PoolWorld.clients at hfull ⊢
    omega
  · intro t ht htholds
    obtain ⟨j, hj⟩ := List.mem_iff_getElem?.mp ht
    have hlt : i < w.length := (List.getElem?_eq_some_iff.mp hi).1
    by_cases hji : j = i
    · subst hji
      rw [hi] at hj
      cases hj
      refine hnest htholds (hall s' ?_ (hholds.trans htholds))
      exact List.mem_set hlt s'
    · refine hall t ?_ htholds
      refine List.mem_iff_getElem?.mpr ⟨j, ?_⟩
      rw [List.getElem?_set_ne (Ne.symm hji)]
      exact hj

/-- One call changes. -/
theorem Sound.set (h : Sound use max w) (hbound : PoolWorld.used (w.set i s') ≤ max)
    (hdisciplined : Disciplined use s'.prog s'.holds)
    (hasked : s'.querying = true → ∃ c k, s'.prog = .call c k ∧ use c = .pool)
    (hfed : ¬ Starved use max (w.set i s')) : Sound use max (w.set i s') where
  bound := hbound
  disciplined := by
    intro t ht
    rcases mem_set_cases ht with rfl | hold
    · exact hdisciplined
    · exact h.disciplined t hold
  asked := by
    intro t ht
    rcases mem_set_cases ht with rfl | hold
    · exact hasked
    · exact h.asked t hold
  fed := hfed

end

/-- The command of one call is answered. -/
theorem Sound.answer (h : Sound use max w) {i : Nat} {c : C}
    {k : Except Err (Res c) → Prog C (fun c => Except Err (Res c)) α} {holds querying : Bool}
    (hi : w[i]? = some ⟨.call c k, holds, querying⟩) (oracle : (c : C) → Except Err (Res c))
    {w' : PoolWorld C Res Err α} (hfed : FedStep use max body w (.answer i oracle))
    (hstep : w.step use max body (.answer i oracle) = some w') : Sound use max w' := by
  have hmem := List.mem_of_getElem? hi
  have hdisciplined := h.disciplined _ hmem
  have hasked : querying = true → use c = .pool := by
    intro hq
    obtain ⟨c', k', hprog, hpool⟩ := h.asked _ hmem hq
    cases hprog
    exact hpool
  -- What the rest of the call may still do, the call could do before.
  have hnest : use c ≠ .release → MayNest use (k (oracle c)) →
      MayNest use (Prog.call c k) := fun hc hn => .later (oracle c) hc hn
  have hgrants : Grants use w (.answer i oracle : PoolAction C Res Err Call) =
      (use c == .connect && granted (oracle c)) := by
    simp only [Grants, hi]
  have hnext := hstep
  simp only [PoolWorld.step, hi] at hstep
  cases hc : use c with
  | connect =>
      obtain ⟨rfl, hk⟩ := hdisciplined.connect hc
      obtain rfl : querying = false := by
        cases querying with
        | false => rfl
        | true => rw [hasked rfl] at hc; cases hc
      simp only [hc] at hstep
      split at hstep
      · rename_i hfree
        cases hstep
        refine h.set (used_set_le hi h.bound (Or.inr ⟨hfree, ?_⟩)) (hk _)
          (fun hq => Bool.noConfusion hq) ?_
        · show (false || granted (oracle c)).toNat + 0 ≤ 0 + 0 + 1
          cases granted (oracle c) <;> decide
        · cases hgranted : granted (oracle c) with
          | true =>
              -- The condition of the step.
              have := hfed (by rw [hgrants, hc, hgranted]; rfl) _ hnext
              rw [hgranted] at this
              exact this
          | false => exact fun hs => h.fed (hs.of_set hi rfl fun hholds => nomatch hholds)
      · cases hstep
  | pool =>
      simp only [hc] at hstep
      split at hstep
      · cases hstep
        -- The statement gives its connection back.
        refine h.set (used_set_le hi h.bound (Or.inl ?_))
          (hdisciplined.keep (by rw [hc]; decide) (by rw [hc]; decide) _)
          (fun hq => Bool.noConfusion hq)
          fun hs => h.fed (hs.of_set hi rfl fun _ => hnest (by rw [hc]; decide))
        show holds.toNat + 0 ≤ holds.toNat + querying.toNat
        omega
      · cases hstep
  | release =>
      obtain ⟨rfl, hk⟩ := hdisciplined.release hc
      simp only [hc] at hstep
      cases hstep
      refine h.set (used_set_le hi h.bound (Or.inl ?_)) (hk _) ?_ fun hs => ?_
      · show 0 + querying.toNat ≤ 1 + querying.toNat
        omega
      · intro hq
        rw [hasked hq] at hc
        cases hc
      · -- One client fewer than connections.
        have hcount := countP_set_add (fun s => s.holds) hi ⟨k (oracle c), false, querying⟩
        have hfull := hs.1
        have hbound := h.bound
        unfold PoolWorld.used PoolWorld.clients at *
        simp only [Bool.toNat_true, Bool.toNat_false] at hcount
        omega
  | client | free =>
      simp only [hc] at hstep
      cases hstep
      refine h.set (used_set_le hi h.bound (Or.inl (Nat.le_refl _)))
        (hdisciplined.keep (by rw [hc]; decide) (by rw [hc]; decide) _) ?_
        fun hs => h.fed (hs.of_set hi rfl fun _ => hnest (by rw [hc]; decide))
      intro hq
      rw [hasked hq] at hc
      cases hc

/-- One step keeps what holds of the calls. -/
theorem Sound.step (hbody : ∀ call : Call, Disciplined use (body call) false)
    (h : Sound use max w) {a : PoolAction C Res Err Call} {w' : PoolWorld C Res Err α}
    (hfed : FedStep use max body w a) (hstep : w.step use max body a = some w') :
    Sound use max w' := by
  cases a with
  | spawn call =>
      cases hstep
      have hclients : PoolWorld.clients (w ++ [⟨body call, false, false⟩]) = w.clients := by
        rw [PoolWorld.clients, List.countP_append]
        rfl
      refine ⟨?_, fun s hs => ?_, fun s hs => ?_, fun hs => h.fed ⟨?_, fun s hmem => ?_⟩⟩
      · rw [PoolWorld.used, hclients, List.countP_append]
        exact h.bound
      · rcases List.mem_append.mp hs with hold | hnew
        · exact h.disciplined s hold
        · rw [List.mem_singleton.mp hnew]
          exact hbody call
      · rcases List.mem_append.mp hs with hold | hnew
        · exact h.asked s hold
        · rw [List.mem_singleton.mp hnew]
          exact fun hq => Bool.noConfusion hq
      · rw [← hclients]
        exact hs.1
      · exact hs.2 s (List.mem_append_left _ hmem)
  | acquire i =>
      simp only [PoolWorld.step] at hstep
      split at hstep
      · rename_i c k holds hi
        split at hstep
        · rename_i hfree
          cases hstep
          -- A free connection is taken, for a statement of the same program.
          have hdisciplined : Disciplined use (.call c k) holds :=
            h.disciplined _ (List.mem_of_getElem? hi)
          refine h.set (used_set_le hi h.bound (Or.inr ⟨hfree.2, ?_⟩)) hdisciplined
            (fun _ => ⟨c, k, rfl, hfree.1⟩) fun hs => h.fed (hs.of_set hi rfl fun _ => id)
          show holds.toNat + 1 ≤ holds.toNat + 0 + 1
          omega
        · cases hstep
      · cases hstep
  | answer i oracle =>
      have hstep' := hstep
      simp only [PoolWorld.step] at hstep'
      split at hstep'
      · rename_i c k holds querying hi
        exact h.answer hi oracle hfed hstep
      · cases hstep'

/-- Every state of a run from the empty pool is sound. -/
theorem PoolRun.sound (hmax : 1 ≤ max) (hbody : ∀ call : Call, Disciplined use (body call) false)
    (h : PoolRun use max body (FedStep use max body) w) : Sound use max w := by
  induction h with
  | start =>
      refine ⟨Nat.zero_le _, List.forall_mem_nil _, List.forall_mem_nil _, fun hs => ?_⟩
      have : max ≤ 0 := hs.1
      omega
  | step a _ hfed hstep ih => exact ih.step hbody hfed hstep

/-- Of a pool with connections: calls that are disciplined, in a run in which no grant of a
client starves the pool, do not deadlock. -/
theorem PoolRun.canStep (hmax : 1 ≤ max)
    (hbody : ∀ call : Call, Disciplined use (body call) false)
    (h : PoolRun use max body (FedStep use max body) w)
    (hunfinished : ∃ s ∈ w, s.prog.finished = false) : ∃ i, CanStep use max body w i := by
  have hsound := h.sound hmax hbody
  by_contra hnone
  rw [not_exists] at hnone
  have hwaits : ∀ s ∈ w, s.prog.finished = false → max ≤ w.used ∧ s.waits use = true := by
    intro s hs hunfinished
    obtain ⟨i, hi⟩ := List.mem_iff_getElem?.mp hs
    exact (canStep_or_waits hi hunfinished (hsound.asked s hs)).resolve_left (hnone i)
  obtain ⟨s, hs, hs'⟩ := hunfinished
  exact hsound.not_deadlocked
    ⟨⟨s, hs, hs'⟩, (hwaits s hs hs').1, fun t ht ht' => (hwaits t ht ht').2⟩

end

/-! ### Programs that throw -/

/-- The discipline of a call is monotone in what follows. -/
theorem discipline_mono (use : C → PoolUse) :
    @MonotoneCalls C Res Err Bool (discipline use) := by
  intro c holds K K' hK h
  unfold discipline at h ⊢
  split at h
  · exact ⟨h.1, fun r => hK _ r (h.2 r)⟩
  · exact ⟨h.1, fun r => hK _ r (h.2 r)⟩
  · exact ⟨h.1, fun r => hK _ r (h.2 r)⟩
  · exact fun r => hK _ r (h r)
  · exact fun r => hK _ r (h r)

/-- Awaiting a call, spelled out. -/
theorem wp_await_iff (use : C → PoolUse) (c : C) (holds : Bool)
    (Q : Except Err (Res c) → Bool → Prop) :
    Await.wp (discipline use) (Await.await c : Await C Res Err (Res c)) holds Q ↔
      discipline use c holds fun after r => Q r after :=
  Iff.rfl

/-- The program is disciplined, and leaves the client held (`held = true`) or not held
(`held = false`), as it was, whether it resolves or throws. -/
def Keeps {β : Type} (use : C → PoolUse) (held : Bool) (p : Await C Res Err β) : Prop :=
  Await.Triple (discipline use) (fun holds => holds = held) p (fun holds => holds = held)
    fun holds => holds = held

section

variable {β γ : Type} {use : C → PoolUse} {held : Bool} {c : C}

/-- A return uses no connection. -/
theorem Keeps.pure (a : β) : Keeps use held (Pure.pure a : Await C Res Err β) :=
  Await.Triple.pure a fun _ h => h

/-- A throw uses no connection. -/
theorem Keeps.throw (e : Err) : Keeps use held (MonadExcept.throw e : Await C Res Err β) :=
  Await.Triple.throw e fun _ h => h

/-- A sequence keeps the client when both parts do. -/
theorem Keeps.bind {p : Await C Res Err β} {f : β → Await C Res Err γ} (hp : Keeps use held p)
    (hf : ∀ b, Keeps use held (f b)) : Keeps use held (p >>= f) :=
  Await.Triple.bind (discipline_mono use) hp hf

/-- A command that every answer leaves as it is. -/
theorem Keeps.await (h : ∀ K : Bool → Except Err (Res c) → Prop, (∀ r, K held r) →
    discipline use c held K) : Keeps use held (Await.await c : Await C Res Err (Res c)) := by
  intro holds hholds
  subst hholds
  rw [wp_await_iff]
  exact h _ fun r => by cases r <;> rfl

/-- A statement on the pool is disciplined with a client held or without. -/
theorem Keeps.pool (hc : use c = .pool) :
    Keeps use held (Await.await c : Await C Res Err (Res c)) := by
  refine .await fun K hK => ?_
  rw [discipline, hc]
  exact hK

/-- A call that uses no connection is disciplined at any point. -/
theorem Keeps.free (hc : use c = .free) :
    Keeps use held (Await.await c : Await C Res Err (Res c)) := by
  refine .await fun K hK => ?_
  rw [discipline, hc]
  exact hK

/-- A statement on the client is disciplined while the client is held. -/
theorem Keeps.client (hc : use c = .client) :
    Keeps use true (Await.await c : Await C Res Err (Res c)) := by
  refine .await fun K hK => ?_
  rw [discipline, hc]
  exact ⟨rfl, hK⟩

/-- `connect`: the client is held, unless there was an error. -/
theorem triple_take (hc : use c = .connect) :
    Await.Triple (discipline use) (fun holds => holds = false)
      (Await.await c : Await C Res Err (Res c)) (fun holds => holds = true)
      fun holds => holds = false := by
  intro holds hholds
  rw [wp_await_iff, discipline, hc]
  exact ⟨hholds, fun r => by cases r <;> rfl⟩

/-- `release`: no client is held. -/
theorem triple_give (hc : use c = .release) :
    Await.Triple (discipline use) (fun holds => holds = true)
      (Await.await c : Await C Res Err (Res c)) (fun holds => holds = false)
      fun holds => holds = false := by
  intro holds hholds
  rw [wp_await_iff, discipline, hc]
  exact ⟨hholds, fun r => by cases r <;> rfl⟩

/-- A `try` statement whose last block releases the client. -/
theorem triple_releasing {body : Await C Res Err β} {handler : Err → Await C Res Err β}
    {fin : Await C Res Err Unit} (hbody : Keeps use true body)
    (hhandler : ∀ e, Keeps use true (handler e))
    (hfin : Await.Triple (discipline use) (fun holds => holds = true) fin
      (fun holds => holds = false) fun holds => holds = false) :
    Await.Triple (discipline use) (fun holds => holds = true)
      (Await.tryFinally body handler fin) (fun holds => holds = false)
      fun holds => holds = false := by
  intro holds hholds
  have hmono := @discipline_mono C Res Err use
  rw [Await.wp_tryFinally]
  refine Await.wp_mono hmono (hbody holds hholds) fun r h₁ hr => ?_
  cases r with
  | ok b =>
      refine Await.wp_mono hmono (hfin h₁ hr) fun f h₂ hf => ?_
      cases f <;> exact hf
  | error e =>
      -- The handler keeps the client, whether it resolves or throws.
      refine Await.wp_mono hmono (hhandler e h₁ hr) fun r' h₂ hr' => ?_
      have hheld : h₂ = true := by
        cases r' <;> exact hr'
      refine Await.wp_mono hmono (hfin h₂ hheld) fun f h₃ hf => ?_
      cases f with
      | ok _ => cases r' <;> exact hf
      | error e' => exact hf

/-- A program that keeps no client is disciplined. -/
theorem Keeps.disciplined {p : Await C Res Err β} (h : Keeps use false p) :
    Disciplined use p.run false := by
  refine Prog.wp_mono (discipline_mono use) (h false rfl) fun r holds hr => ?_
  cases r <;> exact hr

end

end ConnectionPool
