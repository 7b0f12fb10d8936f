import Vanguard.Proofs.CachedResponse

/-!
# `Vanguard.Proofs.KeyExpiry`: a key that has expired

A row is written with an `expires_at` 24 hours ahead, and no statement of the repository reads
it. A request that looks up an expired row is answered from the cache, or polls, unless the row
is `FAILED`. Only then its handler is called, and its answer cached anew (`Renewed`).

`expired_renewed_iff` says so of every run in which the retries are clean and no answer fails to
be recorded (`RecordedStep`). `Phase.OnTheWay` are the phases from the retry to the answer, and
`Recorded` is the invariant from the moment the answer is in the cache.
-/

set_option autoImplicit false

namespace Vanguard

open ReadCommitted

variable {Body : Type}

/-! ### The law -/

/-- A retry of the scope `k` is clean, and the statement that records an answer of the scope
does not fail. -/
def RecordedStep (k : KeyScope) (w : GuardWorld Body) (a : GuardAction Body) : Prop :=
  CleanRetry k w a ∧
    match a with
    | .step i env => ∀ s ∈ w.sessions[i]?, s.scope = k → s.phase.succeeded = true →
        env.fault = false
    | .arrive _ | .answer _ _ _ => True

/-- The condition on a step reads only the step and the session it is about, so it can
be decided. -/
instance [DecidableEq Body] (k : KeyScope) (w : GuardWorld Body) (a : GuardAction Body) :
    Decidable (RecordedStep k w a) :=
  match a with
  | .step i env => inferInstanceAs (Decidable (CleanRetry k w (.step i env) ∧
      ∀ s ∈ w.sessions[i]?, s.scope = k → s.phase.succeeded = true → env.fault = false))
  | .arrive req => inferInstanceAs (Decidable (CleanRetry k w (.arrive req) ∧ True))
  | .answer i status body =>
    inferInstanceAs (Decidable (CleanRetry k w (.answer i status body) ∧ True))

/-- A step of the request `i`. -/
def GuardAction.isStepOf (i : Nat) : GuardAction Body → Bool
  | step j _ => j == i
  | arrive _ | answer _ _ _ => false

/-- A step of the request `i` whose statement fails. -/
def GuardAction.isFailureOf (i : Nat) : GuardAction Body → Bool
  | step j env => j == i && env.fault
  | arrive _ | answer _ _ _ => false

/-- The action happens before the time `t`. Only steps have a time. -/
def GuardAction.Before (t : Timestamp) : GuardAction Body → Prop
  | step _ env => env.now < t
  | arrive _ | answer _ _ _ => True

/-- The request goes on to its handler, or its handler has been called. -/
def Phase.OnTheWay : Phase Body → Prop
  | delete | reinsert | reselect | executing _ | marking _ _ | done (.answered _ _) => True
  | _ => False

/-- The handler of the request `i` is called: the request goes on to it unless one of its
statements fails, and needs at most three steps. -/
def HandlerCalled (k : KeyScope) (i : Nat) (rest : List (GuardAction Body))
    (w : GuardWorld Body) : Prop :=
  ∃ phase, w.sessions[i]? = some ⟨k, phase⟩ ∧
    (phase.OnTheWay ∨ phase = .done (.crashed (.pg .connectionFailure))) ∧
    (rest.any (·.isFailureOf i) = false → 3 ≤ rest.countP (·.isStepOf i) → phase.Executed)

/-- The request `i`, which has looked up its key at the time `now` and left the world `w`, is
treated as the first one: its handler is called, and once its success is recorded, the requests
that arrive in the next 24 hours get it from the cache. -/
def Renewed (k : KeyScope) (i : Nat) (now : Timestamp) (w : GuardWorld Body) : Prop :=
  ∀ rest, w.Allows (RecordedStep k) rest →
    HandlerCalled k i rest (w.run rest) ∧
    ∀ mid env after status body, rest = mid ++ .step i env :: after →
      (w.run mid).sessions[i]? = some ⟨k, .marking status body⟩ → success status = true →
      (∀ a ∈ after, a.Before (now + KeyTable.lifetime)) →
      ∀ (j : Nat) (s : GuardSession Body), (w.run mid).sessions.length ≤ j →
        (w.run rest).sessions[j]? = some s → s.scope = k →
          (w.run rest).GetsReplay s status (some body) ∨
            s.phase = .done (.crashed (.pg .connectionFailure))

/-! ### The way to the handler -/

/-- The statements of a retry before its handler is called. -/
def Phase.behind : Phase Body → Nat
  | delete => 3
  | reinsert => 2
  | reselect => 1
  | _ => 0

/-- A request on its way with nothing behind has called its handler. -/
theorem Phase.OnTheWay.executed {phase : Phase Body} (h : phase.OnTheWay)
    (hbehind : phase.behind = 0) : phase.Executed := by
  cases phase with
  | executing | marking => trivial
  | delete | reinsert | reselect => cases hbehind
  | done outcome =>
      cases outcome with
      | answered => trivial
      | _ => exact absurd h id
  | _ => exact absurd h id

/-- One statement of a request on its way. -/
theorem Phase.OnTheWay.next {phase : Phase Body} (h : phase.OnTheWay) (scope : KeyScope)
    (now : Timestamp) (keys : KeyTable Body) :
    (phase.next scope now keys).1.OnTheWay ∧
      (phase.next scope now keys).1.behind ≤ phase.behind - 1 := by
  cases phase with
  | reinsert =>
      simp only [Phase.next]
      split
      · exact ⟨trivial, Nat.zero_le _⟩
      · exact ⟨trivial, le_refl 1⟩
  | delete => exact ⟨trivial, le_refl 2⟩
  | reselect | executing | marking => exact ⟨trivial, le_refl 0⟩
  | done => exact ⟨h, le_refl 0⟩
  | insert | select | sleeping | pollInsert | pollSelect => exact absurd h id

/-- A failed statement leaves a request on its way or crashed. -/
theorem Phase.OnTheWay.fail {phase : Phase Body} (h : phase.OnTheWay) :
    phase.fail.OnTheWay ∨ phase.fail = .done (.crashed (.pg .connectionFailure)) := by
  cases phase with
  | delete | reinsert | reselect => exact Or.inr rfl
  | executing | marking => exact Or.inl trivial
  | done => exact Or.inl h
  | insert | select | sleeping | pollInsert | pollSelect => exact absurd h id

/-- An answer of the handler leaves nothing behind. -/
theorem Phase.OnTheWay.onAnswer (retry : Bool) (status : Nat) (body : Body) :
    (Vanguard.onAnswer retry status body).OnTheWay ∧
      (Vanguard.onAnswer retry status body).behind = 0 := by
  rw [Vanguard.onAnswer]
  split
  · exact ⟨trivial, rfl⟩
  · exact ⟨trivial, rfl⟩

/-- How far a request is after some actions: it is on its way, with `n` statements behind, or
a statement of it has failed. -/
def Progress (k : KeyScope) (i n : Nat) (failed : Bool) (w : GuardWorld Body) : Prop :=
  ∃ phase, w.sessions[i]? = some ⟨k, phase⟩ ∧
    ((phase.OnTheWay ∧ phase.behind ≤ n) ∨
      failed = true ∧ phase = .done (.crashed (.pg .connectionFailure)))

section

variable {k : KeyScope} {i n : Nat} {failed : Bool} {w : GuardWorld Body}

/-- The request `i` stays where it is. -/
theorem Progress.stays (h : Progress k i n failed w) {w' : GuardWorld Body}
    (hi : w'.sessions[i]? = w.sessions[i]?) : Progress k i n failed w' := by
  obtain ⟨phase, hphase, hprogress⟩ := h
  exact ⟨phase, hi.trans hphase, hprogress⟩

/-- A step of the request brings it nearer to its handler, or fails. -/
theorem Progress.move (h : Progress k i n failed w) (env : Env) :
    Progress k i (n - 1) (failed || env.fault) (w.step (.step i env)) := by
  obtain ⟨phase, hi, hphase⟩ := h
  simp only [GuardWorld.step, hi]
  cases env.fault with
  | true =>
      rw [if_pos rfl, Bool.or_true]
      refine ⟨_, GuardWorld.moveTo_self hi _ _, ?_⟩
      rcases hphase with ⟨honTheWay, hbehind⟩ | ⟨-, rfl⟩
      · rcases honTheWay.fail with hon | hcrash
        · refine Or.inl ⟨hon, ?_⟩
          have hzero : phase.fail.behind = 0 := by
            cases phase with
            | delete | reinsert | reselect => exact absurd hon id
            | _ => rfl
          rw [hzero]
          exact Nat.zero_le _
        · exact Or.inr ⟨rfl, hcrash⟩
      · exact Or.inr ⟨rfl, rfl⟩
  | false =>
      rw [if_neg Bool.false_ne_true, Bool.or_false]
      refine ⟨_, GuardWorld.moveTo_self hi _ _, ?_⟩
      rcases hphase with ⟨honTheWay, hbehind⟩ | ⟨hfailed, rfl⟩
      · obtain ⟨hon, hless⟩ := honTheWay.next k env.now w.keys
        refine Or.inl ⟨hon, ?_⟩
        show (phase.next k env.now w.keys).1.behind ≤ n - 1
        omega
      · exact Or.inr ⟨hfailed, rfl⟩

/-- An answer to any request keeps the progress of this one. -/
theorem Progress.answer (h : Progress k i n failed w) (j status : Nat) (body : Body) :
    Progress k i n failed (w.step (.answer j status body)) := by
  have hw := h
  obtain ⟨phase, hi, hphase⟩ := h
  simp only [GuardWorld.step]
  split
  · rename_i scope retry hj
    by_cases hji : j = i
    · subst hji
      rw [hi] at hj
      cases hj
      obtain ⟨hon, hzero⟩ := Phase.OnTheWay.onAnswer retry status body
      refine ⟨_, GuardWorld.moveTo_self hi _ _, Or.inl ⟨hon, ?_⟩⟩
      rw [hzero]
      exact Nat.zero_le n
    · exact hw.stays (GuardWorld.moveTo_ne hji _ _ _)
  · exact hw

/-- One action. -/
theorem Progress.step (h : Progress k i n failed w) (a : GuardAction Body) :
    Progress k i (n - if a.isStepOf i then 1 else 0) (failed || a.isFailureOf i) (w.step a) := by
  cases a with
  | arrive req =>
      simp only [GuardAction.isStepOf, GuardAction.isFailureOf, Bool.false_eq_true, if_false,
        Nat.sub_zero, Bool.or_false, GuardWorld.step]
      split
      · obtain ⟨phase, hi, hphase⟩ := h
        exact ⟨phase, GuardWorld.arrive_old hi _, hphase⟩
      · exact h
  | step j env =>
      by_cases hji : j = i
      · subst hji
        simp only [GuardAction.isStepOf, GuardAction.isFailureOf, beq_self_eq_true, if_true,
          Bool.true_and]
        exact h.move env
      · have hne : (j == i) = false := beq_eq_false_iff_ne.mpr hji
        simp only [GuardAction.isStepOf, GuardAction.isFailureOf, hne, Bool.false_eq_true,
          if_false, Nat.sub_zero, Bool.false_and, Bool.or_false]
        refine h.stays ?_
        simp only [GuardWorld.step]
        split
        · split
          · exact GuardWorld.moveTo_ne hji _ _ _
          · exact GuardWorld.moveTo_ne hji _ _ _
        · rfl
  | answer j status body =>
      simp only [GuardAction.isStepOf, GuardAction.isFailureOf, Bool.false_eq_true, if_false,
        Nat.sub_zero, Bool.or_false]
      exact h.answer j status body

/-- By induction on the actions. -/
theorem Progress.run (h : Progress k i n failed w) (rest : List (GuardAction Body)) :
    Progress k i (n - rest.countP (·.isStepOf i)) (failed || rest.any (·.isFailureOf i))
      (w.run rest) := by
  induction rest generalizing n failed w with
  | nil =>
      rw [List.countP_nil, List.any_nil, Nat.sub_zero, Bool.or_false]
      exact h
  | cons a rest ih =>
      rw [List.countP_cons, List.any_cons, ← Bool.or_assoc, Nat.add_comm, Nat.sub_add_eq]
      exact ih (h.step a)

/-- A request on its way gets to its handler. -/
theorem HandlerCalled.of_onTheWay {phase : Phase Body} (hi : w.sessions[i]? = some ⟨k, phase⟩)
    (hphase : phase.OnTheWay) (rest : List (GuardAction Body)) :
    HandlerCalled k i rest (w.run rest) := by
  have hbehind : phase.behind ≤ 3 := by
    cases phase <;> simp [Phase.behind]
  have hstart : Progress k i 3 false w := ⟨phase, hi, Or.inl ⟨hphase, hbehind⟩⟩
  obtain ⟨phase', hi', hend⟩ := hstart.run rest
  refine ⟨phase', hi', hend.imp And.left And.right, fun hunfailed hcount => ?_⟩
  rcases hend with ⟨honTheWay, hless⟩ | ⟨hfailed, -⟩
  · exact honTheWay.executed (by omega)
  · rw [Bool.false_or, hunfailed] at hfailed
    cases hfailed

end

/-! ### The recorded answer -/

/-- A request that gets the recorded answer: its lookup has not ended, or it has the replay, or
a statement of it has failed. -/
def Phase.GetsCached (status : Nat) (body : Body) (phase : Phase Body) : Prop :=
  phase = .insert ∨ phase = .select ∨ phase = .done (.replayed status (some body)) ∨
    phase = .done (.crashed (.pg .connectionFailure))

/-- The success of the request `i` is in the row `r` of the scope `k`. The requests from `n` on
have arrived later. -/
structure Recorded (k : KeyScope) (r : IdempotencyRecord Body) (i n status : Nat) (body : Body)
    (w : GuardWorld Body) : Prop where
  exclusive : Exclusive k w
  row : w.keys.get? k = some r
  completed : r.status = .completed
  cached : cachedResponse r = .done (.replayed status (some body))
  executed : w.sessions[i]? = some ⟨k, .done (.answered status body)⟩
  hsuccess : success status = true
  later : ∀ (j : Nat) (s : GuardSession Body), n ≤ j → w.sessions[j]? = some s → s.scope = k →
    s.phase.GetsCached status body

section

variable {k : KeyScope} {r : IdempotencyRecord Body} {i n status : Nat} {body : Body}
  {w : GuardWorld Body}

/-- The requests of the scope other than `i` do not hold the lock. -/
theorem Recorded.not_holds (h : Recorded k r i n status body w) {j : Nat}
    {s : GuardSession Body} (hj : w.sessions[j]? = some s) (hs : s.scope = k) (hji : j ≠ i) :
    s.phase.holds = false := by
  cases hholds : s.phase.holds with
  | false => rfl
  | true => exact absurd (h.exclusive.one j i s _ hj h.executed hs rfl hholds h.hsuccess) hji

/-- No statement changes the row. -/
theorem Recorded.row_next (h : Recorded k r i n status body w) {j : Nat} {env : Env}
    {s : GuardSession Body} (hj : w.sessions[j]? = some s) (hfault : env.fault = false)
    (hclean : CleanRetry k w (.step j env)) :
    (s.phase.next s.scope env.now w.keys).2.get? k = some r := by
  obtain ⟨scope, phase⟩ := s
  by_cases hs : scope = k
  · subst hs
    obtain ⟨hdelete, hreinsert⟩ := hclean _ hj rfl hfault
    have hinsert : w.keys.insertKey scope env.now = none := KeyTable.insertKey_of_some h.row _
    by_cases hji : j = i
    · -- The request has ended.
      subst hji
      rw [h.executed] at hj
      cases hj
      exact h.row
    · have hnot := h.not_holds hj rfl hji
      dsimp only at hnot hdelete hreinsert ⊢
      cases phase with
      | insert | pollInsert =>
          simp only [Phase.next, hinsert]
          exact h.row
      | select | sleeping | pollSelect | done => exact h.row
      | delete =>
          -- A clean retry deletes no completed row.
          have hfailed := hdelete rfl r h.row
          rw [h.completed] at hfailed
          cases hfailed
      | reinsert =>
          have hnone := hreinsert rfl
          rw [h.row] at hnone
          cases hnone
      | reselect | executing | marking => cases hnot
  · rw [Phase.next_get?_ne hs]
    exact h.row

/-- A request that arrived later gets the recorded answer. -/
theorem Recorded.later_next (h : Recorded k r i n status body w) {phase : Phase Body}
    (hphase : phase.GetsCached status body) (now : Timestamp) :
    (phase.next k now w.keys).1.GetsCached status body := by
  rcases hphase with rfl | rfl | rfl | rfl
  · simp only [Phase.next, KeyTable.insertKey_of_some h.row]
    exact Or.inr (Or.inl rfl)
  · have hselect : w.keys.selectKey k = some r := h.row
    simp only [Phase.next, hselect, onExisting, h.completed]
    exact Or.inr (Or.inr (Or.inl h.cached))
  · exact Or.inr (Or.inr (Or.inl rfl))
  · exact Or.inr (Or.inr (Or.inr rfl))

/-- A failed statement is one of the allowed outcomes. -/
theorem Phase.GetsCached.fail {phase : Phase Body} (h : phase.GetsCached status body) :
    phase.fail.GetsCached status body := by
  rcases h with rfl | rfl | rfl | rfl
  · exact Or.inr (Or.inr (Or.inr rfl))
  · exact Or.inr (Or.inr (Or.inr rfl))
  · exact Or.inr (Or.inr (Or.inl rfl))
  · exact Or.inr (Or.inr (Or.inr rfl))

/-- A request moves, the lock stays exclusive and the row stays. -/
theorem Recorded.moveTo (h : Recorded k r i n status body w) {j : Nat} {s : GuardSession Body}
    {phase : Phase Body} {keys : KeyTable Body} (hexclusive : Exclusive k (w.moveTo j s phase keys))
    (hj : w.sessions[j]? = some s) (hrow : keys.get? k = some r)
    (hself : j = i → phase = .done (.answered status body))
    (hlater : s.scope = k → n ≤ j → phase.GetsCached status body) :
    Recorded k r i n status body (w.moveTo j s phase keys) where
  exclusive := hexclusive
  row := hrow
  completed := h.completed
  cached := h.cached
  executed := by
    by_cases hji : j = i
    · subst hji
      have hs := hj
      rw [h.executed] at hs
      cases hs
      rw [GuardWorld.moveTo_self hj, hself rfl]
    · rw [GuardWorld.moveTo_ne hji]
      exact h.executed
  hsuccess := h.hsuccess
  later := by
    intro l t hl ht hscope
    rcases GuardWorld.moveTo_cases ht with ⟨rfl, rfl⟩ | ⟨-, hold⟩
    · exact hlater hscope hl
    · exact h.later l t hl hold hscope

/-- One action keeps the recorded answer. -/
theorem Recorded.step (h : Recorded k r i n status body w) {a : GuardAction Body}
    (ha : RecordedStep k w a) : Recorded k r i n status body (w.step a) := by
  have hexclusive := h.exclusive.step ha.1
  have hstep := w.stepped a
  generalize w.step a = w' at hexclusive hstep ⊢
  cases hstep with
  | idle => exact h
  | @arrive req scope hguard =>
      refine ⟨hexclusive, h.row, h.completed, h.cached, GuardWorld.arrive_old h.executed _,
        h.hsuccess, fun j s hl hj hs => ?_⟩
      rcases GuardWorld.arrive_cases hj with hold | rfl
      · exact h.later j s hl hold hs
      · exact Or.inl rfl
  | @fail j env s hj hfault =>
      refine h.moveTo hexclusive hj h.row (fun hji => ?_) fun hs hl => (h.later j s hl hj hs).fail
      subst hji
      rw [h.executed] at hj
      cases hj
      rfl
  | @next j env s hj hfault =>
      refine h.moveTo hexclusive hj (h.row_next hj hfault ha.1) (fun hji => ?_) fun hs hl => ?_
      · subst hji
        rw [h.executed] at hj
        cases hj
        rfl
      · obtain ⟨scope, phase⟩ := s
        subst hs
        exact h.later_next (h.later j _ hl hj rfl) env.now
  | @answer j st b scope retry hj =>
      refine h.moveTo hexclusive hj h.row (fun hji => ?_) fun hs hl => ?_
      · subst hji
        rw [h.executed] at hj
        cases hj
      · -- No handler of a later request runs.
        rcases h.later j _ hl hj hs with hp | hp | hp | hp <;> cases hp

/-- The statement that records the success of the request that holds the lock. -/
theorem Recorded.of_marking (h : Exclusive k w)
    (hi : w.sessions[i]? = some ⟨k, .marking status body⟩) (hsuccess : success status = true)
    {env : Env} (ha : RecordedStep k w (.step i env)) :
    ∃ r, Recorded k r i w.sessions.length status body (w.step (.step i env)) := by
  have hexclusive := h.step ha.1
  have hfault : env.fault = false := ha.2 _ hi rfl hsuccess
  obtain ⟨r, hr, -, -⟩ := h.row i _ hi rfl rfl
  have hrow := KeyTable.get?_markCompleted hr status body env.now
  have hstep : w.step (.step i env) = w.moveTo i ⟨k, .marking status body⟩
      (.done (.answered status body)) (w.keys.markCompleted k status body env.now) := by
    simp only [GuardWorld.step, hi, hfault, Bool.false_eq_true, if_false, Phase.next, hsuccess,
      if_true]
  rw [hstep] at hexclusive ⊢
  refine ⟨_, hexclusive, hrow, rfl, rfl, GuardWorld.moveTo_self hi _ _, hsuccess, ?_⟩
  -- No request has arrived since.
  intro j s hl hj
  have hlt := (List.getElem?_eq_some_iff.mp hj).1
  simp only [GuardWorld.moveTo, List.length_set] at hlt
  omega

/-- A later request gets the replay, unless a statement of it fails. -/
theorem Recorded.getsReplay (h : Recorded k r i n status body w) {j : Nat}
    {s : GuardSession Body} (hl : n ≤ j) (hj : w.sessions[j]? = some s) (hs : s.scope = k) :
    w.GetsReplay s status (some body) ∨ s.phase = .done (.crashed (.pg .connectionFailure)) := by
  have hphase := h.later j s hl hj hs
  obtain ⟨scope, phase⟩ := s
  subst hs
  rcases hphase with rfl | rfl | rfl | rfl
  · refine Or.inl (Or.inl ⟨rfl, fun now => ?_⟩)
    simp only [Phase.next, KeyTable.insertKey_of_some h.row]
  · refine Or.inl (Or.inr (Or.inl ⟨rfl, fun now => ?_⟩))
    have hselect : w.keys.selectKey scope = some r := h.row
    simp only [Phase.next, hselect, onExisting, h.completed]
    exact h.cached
  · exact Or.inl (Or.inr (Or.inr rfl))
  · exact Or.inr rfl

end

/-! ### The result -/

/-- A request on its way to its handler, in a run with one holder of the lock. -/
theorem Renewed.of_onTheWay {k : KeyScope} {i : Nat} {now : Timestamp} {w : GuardWorld Body}
    (h : Exclusive k w) {phase : Phase Body} (hi : w.sessions[i]? = some ⟨k, phase⟩)
    (hphase : phase.OnTheWay) : Renewed k i now w := by
  intro rest hrest
  refine ⟨.of_onTheWay hi hphase rest, ?_⟩
  rintro mid env after status body rfl hmarking hsuccess - j s hl hj hs
  rw [GuardWorld.allows_append] at hrest
  obtain ⟨hmid, hmark, hafter⟩ := hrest
  -- The answer is recorded after `mid`, and stays recorded.
  have hexclusive : Exclusive k (w.run mid) :=
    GuardWorld.run_invariant (fun _ _ ha h => h.step ha.1) h hmid
  obtain ⟨r, hrecorded⟩ := Recorded.of_marking hexclusive hmarking hsuccess hmark
  have hend : Recorded k r i (w.run mid).sessions.length status body
      (((w.run mid).step (.step i env)).run after) :=
    GuardWorld.run_invariant (fun _ _ ha h => h.step ha) hrecorded hafter
  rw [GuardWorld.run_append] at hj ⊢
  exact hend.getsReplay hl hj hs

/-- A request that is not on its way has not been let through. -/
theorem Renewed.onTheWay {k : KeyScope} {i : Nat} {now : Timestamp} {w : GuardWorld Body}
    (h : Renewed k i now w) {phase : Phase Body} (hi : w.sessions[i]? = some ⟨k, phase⟩)
    (hphase : phase ≠ .done (.crashed (.pg .connectionFailure))) : phase.OnTheWay := by
  obtain ⟨⟨phase', hi', hway, -⟩, -⟩ := h [] trivial
  rw [GuardWorld.run, hi] at hi'
  cases hi'
  exact hway.resolve_right hphase

/-- The first lookup lets a request through to its handler exactly when the row is `FAILED`. -/
theorem onExisting_onTheWay (now : Timestamp) (r : IdempotencyRecord Body) :
    (onExisting now (some r)).OnTheWay ↔ r.status = .failed := by
  rw [onExisting]
  cases r.status with
  | completed => exact ⟨fun h => absurd h id, fun h => by cases h⟩
  | failed => exact ⟨fun _ => rfl, fun _ => trivial⟩
  | processing =>
      refine ⟨fun h => absurd h ?_, fun h => by cases h⟩
      dsimp only [pollLoop]
      split
      · exact id
      · exact id

/-- A lookup that succeeded does not crash the request on a connection. -/
theorem onExisting_not_crashed (now : Timestamp) (r : IdempotencyRecord Body) :
    onExisting now (some r) ≠ .done (.crashed (.pg .connectionFailure)) := by
  intro h
  rw [onExisting] at h
  cases hstatus : r.status with
  | completed | failed =>
      rw [hstatus] at h
      cases h
  | processing =>
      rw [hstatus] at h
      dsimp only [pollLoop] at h
      split at h <;> cases h

/-- In every run with clean retries and recorded answers, and under every clock: a request that
looks up an expired row is treated as the first one exactly when the row is `FAILED`. -/
theorem expired_renewed_iff {k : KeyScope} {keys : KeyTable Body}
    {first : List (GuardAction Body)} {i : Nat} {env : Env} {r : IdempotencyRecord Body}
    (hfirst : (GuardWorld.start keys).Allows (RecordedStep k) first)
    (hi : ((GuardWorld.start keys).run first).sessions[i]? = some ⟨k, .select⟩)
    (hfault : env.fault = false)
    (hrow : ((GuardWorld.start keys).run first).keys.get? k = some r) :
    r.expiresAt < env.now →
      (Renewed k i env.now (((GuardWorld.start keys).run first).step (.step i env)) ↔
        r.status = .failed) := by
  intro _
  have hexclusive : Exclusive k ((GuardWorld.start keys).run first) :=
    GuardWorld.run_invariant (fun _ _ ha h => h.step ha.1) (Exclusive.start k keys) hfirst
  generalize (GuardWorld.start keys).run first = w at hi hrow hexclusive ⊢
  -- The lookup finds the row.
  have hclean : CleanRetry k w (.step i env) := by
    intro s hs _ _
    rw [hi] at hs
    cases hs
    constructor
    · intro hp
      cases hp
    · intro hp
      cases hp
  have hstep : w.step (.step i env) =
      w.moveTo i ⟨k, .select⟩ (onExisting env.now (some r)) w.keys := by
    have hselect : w.keys.selectKey k = some r := hrow
    simp only [GuardWorld.step, hi, hfault, Bool.false_eq_true, if_false, Phase.next, hselect]
  have hnow := hexclusive.step hclean
  rw [hstep] at hnow ⊢
  have hself := GuardWorld.moveTo_self hi (onExisting env.now (some r)) w.keys
  constructor
  · intro hrenewed
    exact (onExisting_onTheWay env.now r).mp
      (hrenewed.onTheWay hself (onExisting_not_crashed env.now r))
  · intro hfailed
    exact .of_onTheWay hnow hself ((onExisting_onTheWay env.now r).mpr hfailed)

/-! ### Sample runs -/

/-- A moment after the lifetime of a key of the first request. -/
def sampleLate : Env := { sampleEnv with now := KeyTable.lifetime + 2 }

/-- The first request fails, and a request of the next day looks up its key. -/
def sampleNextDay : List (GuardAction String) :=
  sampleFailure ++ [.arrive sampleGuarded, .step 1 sampleLate]

/-- The renewal after a failure, in a run that continues on the next day. -/
theorem renewed_of_failure :
    Renewed sampleScope 1 sampleLate.now
      (((GuardWorld.start Table.empty).run sampleNextDay).step (.step 1 sampleLate)) := by
  have hfirst : (GuardWorld.start Table.empty).Allows (RecordedStep sampleScope)
      sampleNextDay := by
    decide
  have hrow : ((GuardWorld.start Table.empty).run sampleNextDay).keys.get? sampleScope =
      some
        { scope := sampleScope
          status := .failed
          responseStatus := none
          responseBody := none
          expiresAt := 1 + KeyTable.lifetime
          createdAt := 1
          updatedAt := 1 } := by
    decide
  exact (expired_renewed_iff hfirst (by decide) rfl hrow (by decide)).mpr rfl

/-- The first request succeeds, and a request of the next day looks up its key. -/
def sampleCompletedKey : List (GuardAction String) :=
  [.arrive sampleGuarded, guardStep 0, .answer 0 201 "created", guardStep 0,
    .arrive sampleGuarded, .step 1 sampleLate]

/-- The first request never ends, and a request of the next day looks up its key. -/
def sampleAbandonedKey : List (GuardAction String) :=
  [.arrive sampleGuarded, guardStep 0, .arrive sampleGuarded, .step 1 sampleLate]

/-- An expired answer is replayed, and a request polls on the expired key of one that never
ended. -/
theorem expired_key_replayed :
    ((((GuardWorld.start Table.empty).run sampleCompletedKey).keys.get? sampleScope).any
        fun r => r.expiresAt < sampleLate.now) = true ∧
    ¬ Renewed sampleScope 1 sampleLate.now
      (((GuardWorld.start Table.empty).run sampleCompletedKey).step (.step 1 sampleLate)) ∧
    ((((GuardWorld.start Table.empty).run sampleAbandonedKey).keys.get? sampleScope).any
        fun r => r.expiresAt < sampleLate.now) = true ∧
    ¬ Renewed sampleScope 1 sampleLate.now
      (((GuardWorld.start Table.empty).run sampleAbandonedKey).step (.step 1 sampleLate)) := by
  refine ⟨by decide, fun h => ?_, by decide, fun h => ?_⟩
  · have hi : (((GuardWorld.start Table.empty).run sampleCompletedKey).step
        (.step 1 sampleLate)).sessions[1]? =
        some ⟨sampleScope, .done (.replayed 201 (some "created"))⟩ := by
      decide
    exact absurd (h.onTheWay hi fun hp => by cases hp) id
  · have hi : (((GuardWorld.start Table.empty).run sampleAbandonedKey).step
        (.step 1 sampleLate)).sessions[1]? =
        some ⟨sampleScope, .sleeping (sampleLate.now + processingTimeoutMs)
          (sampleLate.now + pollIntervalMs)⟩ := by
      decide
    exact absurd (h.onTheWay hi fun hp => by cases hp) id

end Vanguard
