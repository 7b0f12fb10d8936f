import Vanguard.Proofs.Runs
import Vanguard.Services.Idempotency

/-!
# `Vanguard.Proofs.OneExecution`: at most one execution for an idempotency key

The row of a key is a lock on its scope. A request holds the lock (`Phase.holds`) while its
handler runs, while it records the answer, and for ever once the answer is a success.
`Exclusive` says that at most one request holds it, and that the row of a held lock is there
and not `FAILED`. So no `INSERT` succeeds and no retry begins while a request holds the lock.

In the branch of `FAILED`, the lookup, `deleteKey` and the second `tryInsert` are steps of
their own, and the result of the second `tryInsert` is not read. Two retries that find the
same failed row both run the handler (`retries_execute_twice`). `atMostOnce_of_run` is the
result for the runs in which every retry deletes a failed row, or none, and inserts the row
again (`CleanRetry`).
-/

set_option autoImplicit false

namespace Vanguard

open ReadCommitted

variable {Body : Type}

/-! ### The law -/

/-- The handler runs. -/
def Phase.inProgress : Phase Body → Bool
  | executing _ => true
  | _ => false

/-- The handler has answered with success. -/
def Phase.succeeded : Phase Body → Bool
  | marking status _ | done (.answered status _) => success status
  | _ => false

/-- At most one request of the scope `k` satisfies `p`. -/
def GuardWorld.AtMostOne (w : GuardWorld Body) (k : KeyScope) (p : Phase Body → Bool) : Prop :=
  ∀ (i j : Nat) (s t : GuardSession Body), w.sessions[i]? = some s → w.sessions[j]? = some t →
    s.scope = k → t.scope = k → p s.phase = true → p t.phase = true → i = j

/-- A retry of the scope `k` deletes a failed row, or none, and its second `INSERT` inserts. -/
def CleanRetry (k : KeyScope) (w : GuardWorld Body) : GuardAction Body → Prop
  | .step i env => ∀ s ∈ w.sessions[i]?, s.scope = k → env.fault = false →
      (s.phase = .delete → ∀ r ∈ w.keys.get? k, r.status = .failed) ∧
      (s.phase = .reinsert → w.keys.get? k = none)
  | .arrive _ | .answer _ _ _ => True

/-- The condition on a step reads only the world it starts from, so it can be
decided. -/
instance [DecidableEq Body] (k : KeyScope) (w : GuardWorld Body) (a : GuardAction Body) :
    Decidable (CleanRetry k w a) :=
  match a with
  | .step i env => inferInstanceAs (Decidable (∀ s ∈ w.sessions[i]?, s.scope = k →
      env.fault = false → (s.phase = .delete → ∀ r ∈ w.keys.get? k, r.status = .failed) ∧
        (s.phase = .reinsert → w.keys.get? k = none)))
  | .arrive _ | .answer _ _ _ => inferInstanceAs (Decidable True)

/-! ### The lock -/

/-- The request holds the lock of its scope. -/
def Phase.holds : Phase Body → Bool
  | reselect | executing _ | marking _ _ => true
  | done (.answered status _) => success status
  | _ => false

/-- A request in progress holds the lock. -/
theorem Phase.holds_of_inProgress {phase : Phase Body} (h : phase.inProgress = true) :
    phase.holds = true := by
  cases phase with
  | executing retry => rfl
  | _ => cases h

/-- A request that succeeded holds the lock. -/
theorem Phase.holds_of_succeeded {phase : Phase Body} (h : phase.succeeded = true) :
    phase.holds = true := by
  cases phase with
  | marking status body => rfl
  | done outcome =>
      cases outcome with
      | answered status body => exact h
      | _ => cases h
  | _ => cases h

/-- The row of a lock that a request in this phase holds. -/
def LockRow (keys : KeyTable Body) (k : KeyScope) (phase : Phase Body) : Prop :=
  ∃ r, keys.get? k = some r ∧ r.status ≠ .failed ∧
    (r.status = .completed → phase.succeeded = true)

/-- At most one request holds the lock of `k`, and the lock that it holds has its row. -/
structure Exclusive (k : KeyScope) (w : GuardWorld Body) : Prop where
  one : w.AtMostOne k Phase.holds
  row : ∀ (i : Nat) (s : GuardSession Body), w.sessions[i]? = some s → s.scope = k →
    s.phase.holds = true → LockRow w.keys k s.phase

/-- Without requests, nobody holds the lock. -/
theorem Exclusive.start (k : KeyScope) (keys : KeyTable Body) :
    Exclusive k (GuardWorld.start keys) where
  one := by
    intro i j s t hi
    cases hi
  row := by
    intro i s hi
    cases hi

/-- Without the row of a lock, or with a failed one, no request holds the lock. -/
theorem Exclusive.not_holds {k : KeyScope} {w : GuardWorld Body} (h : Exclusive k w)
    (hrow : ∀ r ∈ w.keys.get? k, r.status = .failed) {i : Nat} {s : GuardSession Body}
    (hi : w.sessions[i]? = some s) (hs : s.scope = k) : s.phase.holds = false := by
  cases hh : s.phase.holds with
  | false => rfl
  | true =>
      obtain ⟨r, hr, hne, -⟩ := h.row i s hi hs hh
      exact absurd (hrow r hr) hne

section Move

variable {k : KeyScope} {w : GuardWorld Body} {i : Nat} {s : GuardSession Body}
  {phase : Phase Body} {keys : KeyTable Body}

/-- The requests after one has moved. -/
theorem GuardWorld.moveTo_cases {j : Nat} {t : GuardSession Body}
    (h : (w.moveTo i s phase keys).sessions[j]? = some t) :
    (j = i ∧ t = ⟨s.scope, phase⟩) ∨ (j ≠ i ∧ w.sessions[j]? = some t) :=
  ReadCommitted.getElem?_set_cases h

/-- A move after which no other request holds the lock. -/
theorem Exclusive.of_moveTo
    (halone : ∀ (j : Nat) (t : GuardSession Body), w.sessions[j]? = some t → t.scope = k →
      t.phase.holds = true → j = i)
    (hrow : phase.holds = true → LockRow keys k phase) :
    Exclusive k (w.moveTo i s phase keys) where
  one := by
    have honly : ∀ (j : Nat) (t : GuardSession Body),
        (w.moveTo i s phase keys).sessions[j]? = some t → t.scope = k →
        t.phase.holds = true → j = i := by
      intro j t hj ht hholds
      rcases GuardWorld.moveTo_cases hj with ⟨hji, -⟩ | ⟨-, hold⟩
      · exact hji
      · exact halone j t hold ht hholds
    intro j j' t t' hj hj' ht ht' hh hh'
    rw [honly j t hj ht hh, honly j' t' hj' ht' hh']
  row := by
    intro j t hj ht hholds
    rcases GuardWorld.moveTo_cases hj with ⟨-, rfl⟩ | ⟨hne, hold⟩
    · exact hrow hholds
    · exact absurd (halone j t hold ht hholds) hne

/-- A move that leaves the row of the lock, and takes no lock. -/
theorem Exclusive.moveTo_same (h : Exclusive k w) (hi : w.sessions[i]? = some s)
    (hkeys : keys.get? k = w.keys.get? k)
    (hmove : s.scope = k → (phase.holds = true → s.phase.holds = true) ∧
      (s.phase.succeeded = true → phase.succeeded = true)) :
    Exclusive k (w.moveTo i s phase keys) where
  one := by
    have hback : ∀ (j : Nat) (t : GuardSession Body),
        (w.moveTo i s phase keys).sessions[j]? = some t → t.scope = k →
        t.phase.holds = true → ∃ t', w.sessions[j]? = some t' ∧ t'.scope = k ∧
          t'.phase.holds = true := by
      intro j t hj ht hholds
      rcases GuardWorld.moveTo_cases hj with ⟨rfl, rfl⟩ | ⟨-, hold⟩
      · exact ⟨s, hi, ht, (hmove ht).1 hholds⟩
      · exact ⟨t, hold, ht, hholds⟩
    intro j j' t t' hj hj' ht ht' hh hh'
    obtain ⟨u, hu, huk, hhu⟩ := hback j t hj ht hh
    obtain ⟨u', hu', huk', hhu'⟩ := hback j' t' hj' ht' hh'
    exact h.one j j' u u' hu hu' huk huk' hhu hhu'
  row := by
    intro j t hj ht hholds
    show ∃ r, keys.get? k = some r ∧ _
    rw [hkeys]
    rcases GuardWorld.moveTo_cases hj with ⟨rfl, rfl⟩ | ⟨-, hold⟩
    · have hm := hmove ht
      obtain ⟨r, hr, hne, hdone⟩ := h.row j s hi ht (hm.1 hholds)
      exact ⟨r, hr, hne, fun hc => hm.2 (hdone hc)⟩
    · exact h.row j t hold ht hholds

/-- A move that finds no row of the lock, or a failed one. -/
theorem Exclusive.moveTo_free (h : Exclusive k w)
    (hfree : ∀ r ∈ w.keys.get? k, r.status = .failed)
    (hrow : phase.holds = true → LockRow keys k phase) :
    Exclusive k (w.moveTo i s phase keys) := by
  refine Exclusive.of_moveTo (fun j t hj ht hholds => ?_) hrow
  rw [h.not_holds hfree hj ht] at hholds
  cases hholds

end Move

/-! ### The steps -/

/-- The poll loop holds no lock. -/
theorem holds_pollLoop (deadline now : Timestamp) :
    (pollLoop deadline now : Phase Body).holds = false := by
  rw [pollLoop]
  split <;> rfl

/-- What a lookup finds gives no lock. -/
theorem holds_onExisting (now : Timestamp) (record : Option (IdempotencyRecord Body)) :
    (onExisting now record).holds = false := by
  cases record with
  | none => rfl
  | some r =>
      rw [onExisting]
      split
      · rfl
      · rfl
      · exact holds_pollLoop _ _

/-- What a poll finds gives no lock. -/
theorem holds_onPolled (deadline now : Timestamp) (record : Option (IdempotencyRecord Body)) :
    (onPolled deadline now record).holds = false := by
  cases record with
  | none => rfl
  | some r =>
      rw [onPolled]
      split
      · rfl
      · rfl
      · exact holds_pollLoop _ _

/-- The lock of an inserted row. -/
theorem LockRow.of_insertKey {keys : KeyTable Body} {k : KeyScope} {now : Timestamp}
    {r : IdempotencyRecord Body} (h : keys.insertKey k now = some r) (phase : Phase Body) :
    LockRow (keys.put r) k phase := by
  obtain ⟨-, hscope, hstatus⟩ := KeyTable.insertKey_eq_some h
  refine ⟨r, ?_, ?_, ?_⟩
  · rw [← hscope, Table.get?_put_self]
  · rw [hstatus]
    exact KeyStatus.noConfusion
  · intro hc
    rw [hstatus] at hc
    cases hc

/-- The write of `markCompleted` keeps the lock of the request that it records, and the one
of `markFailed` gives it up. -/
theorem LockRow.of_marking {keys : KeyTable Body} {k : KeyScope} {status : Nat} {body : Body}
    (h : LockRow keys k (.marking status body)) (now : Timestamp)
    (hholds : (Phase.done (.answered status body)).holds = true) :
    LockRow ((Phase.marking status body).next k now keys).2 k
      (.done (.answered status body)) := by
  obtain ⟨r, hr, -, -⟩ := h
  have hsucceeded : success status = true := hholds
  simp only [Phase.next, hsucceeded, if_true]
  exact ⟨_, KeyTable.get?_markCompleted hr status body now, by simp, fun _ => hsucceeded⟩

/-- A statement of a request keeps the lock, if no retry takes it from another one. -/
theorem Exclusive.next {k : KeyScope} {w : GuardWorld Body} (h : Exclusive k w) {i : Nat}
    {s : GuardSession Body} (hi : w.sessions[i]? = some s) {env : Env}
    (hfault : env.fault = false) (hclean : CleanRetry k w (.step i env)) :
    Exclusive k (w.moveTo i s (s.phase.next s.scope env.now w.keys).1
      (s.phase.next s.scope env.now w.keys).2) := by
  obtain ⟨scope, phase⟩ := s
  by_cases hk : scope = k
  · subst hk
    obtain ⟨hdelete, hreinsert⟩ := hclean _ hi rfl hfault
    -- The lookups that find a row leave the table, and no request that looks up holds the lock.
    have hlookup : ∀ phase', phase'.holds = false → phase.succeeded = false →
        Exclusive scope (w.moveTo i ⟨scope, phase⟩ phase' w.keys) := by
      intro phase' hidle hnot
      refine h.moveTo_same hi rfl fun _ => ⟨fun hholds => ?_, fun hsucceeded => ?_⟩
      · rw [hidle] at hholds
        cases hholds
      · change phase.succeeded = true at hsucceeded
        rw [hnot] at hsucceeded
        cases hsucceeded
    have hinsert : ∀ r, w.keys.insertKey scope env.now = some r → ∀ phase',
        Exclusive scope (w.moveTo i ⟨scope, phase⟩ phase' (w.keys.put r)) := by
      intro r hr phase'
      refine h.moveTo_free ?_ fun _ => LockRow.of_insertKey hr phase'
      rw [(KeyTable.insertKey_eq_some hr).1]
      intro r' hr'
      cases hr'
    cases phase with
    | insert =>
        simp only [Phase.next]
        split
        · rename_i r hr
          exact hinsert r hr _
        · exact hlookup _ rfl rfl
    | select => exact hlookup _ (holds_onExisting _ _) rfl
    | delete => exact h.moveTo_free (hdelete rfl) fun hholds => by cases hholds
    | reinsert =>
        simp only [Phase.next]
        split
        · rename_i r hr
          exact hinsert r hr _
        · rename_i hnone
          have hsome := KeyTable.insertKey_eq_none_iff.mp hnone
          rw [hreinsert rfl] at hsome
          cases hsome
    | reselect => exact h.moveTo_same hi rfl fun _ => ⟨fun _ => rfl, fun hs => by cases hs⟩
    | marking status body =>
        refine Exclusive.of_moveTo (fun j t hj ht hholds => ?_) fun hholds => ?_
        · exact h.one j i t _ hj hi ht rfl hholds rfl
        · exact LockRow.of_marking (h.row i _ hi rfl rfl) env.now hholds
    | sleeping deadline wake =>
        refine hlookup _ ?_ rfl
        simp only [Phase.next]
        split <;> rfl
    | pollInsert deadline =>
        simp only [Phase.next]
        split
        · rename_i r hr
          exact hinsert r hr _
        · exact hlookup _ rfl rfl
    | pollSelect deadline => exact hlookup _ (holds_onPolled _ _ _) rfl
    | executing | done => exact h.moveTo_same hi rfl fun _ => ⟨id, id⟩
  · exact h.moveTo_same hi (Phase.next_get?_ne hk _ _ _) fun hscope => absurd hscope hk

/-- A failed statement takes no lock. -/
theorem Phase.holds_of_fail {phase : Phase Body} (h : phase.fail.holds = true) :
    phase.holds = true := by
  cases phase with
  | executing | marking => rfl
  | done => exact h
  | _ => cases h

/-- A failed statement does not undo a success. -/
theorem Phase.succeeded_fail {phase : Phase Body} (h : phase.succeeded = true) :
    phase.fail.succeeded = true := by
  cases phase with
  | marking | done => exact h
  | _ => cases h

/-- The requests after one has arrived. -/
theorem GuardWorld.arrive_cases {sessions : List (GuardSession Body)} {new : GuardSession Body}
    {j : Nat} {t : GuardSession Body} (h : (sessions ++ [new])[j]? = some t) :
    sessions[j]? = some t ∨ t = new := by
  rcases getElem?_snoc_cases h with h | ⟨-, h⟩
  · exact Or.inl h
  · exact Or.inr h

/-- A request that arrives holds no lock. -/
theorem Exclusive.arrive {k : KeyScope} {w : GuardWorld Body} (h : Exclusive k w)
    (scope : KeyScope) : Exclusive k ⟨w.keys, w.sessions ++ [⟨scope, .insert⟩]⟩ := by
  have hold : ∀ (j : Nat) (t : GuardSession Body),
      (w.sessions ++ [⟨scope, .insert⟩])[j]? = some t → t.phase.holds = true →
      w.sessions[j]? = some t := by
    intro j t hj hholds
    rcases GuardWorld.arrive_cases hj with hold | rfl
    · exact hold
    · cases hholds
  constructor
  · intro i j s t hi hj hs ht hhi hhj
    exact h.one i j s t (hold i s hi hhi) (hold j t hj hhj) hs ht hhi hhj
  · intro i s hi hs hholds
    exact h.row i s (hold i s hi hholds) hs hholds

/-- One action keeps the lock. -/
theorem Exclusive.step {k : KeyScope} {w : GuardWorld Body} (h : Exclusive k w)
    {a : GuardAction Body} (hclean : CleanRetry k w a) : Exclusive k (w.step a) := by
  cases a with
  | arrive req =>
      simp only [GuardWorld.step]
      split
      · exact h.arrive _
      · exact h
  | step i env =>
      simp only [GuardWorld.step]
      split
      · rename_i s hi
        split
        · exact h.moveTo_same hi rfl fun _ => ⟨Phase.holds_of_fail, Phase.succeeded_fail⟩
        · rename_i hfault
          exact h.next hi (by simpa using hfault) hclean
      · exact h
  | answer i status body =>
      simp only [GuardWorld.step]
      split
      · rename_i scope retry hi
        exact h.moveTo_same hi rfl fun _ => ⟨fun _ => rfl, fun hs => by cases hs⟩
      · exact h

/-! ### Runs -/

/-- A run of clean retries stays exclusive. -/
theorem Exclusive.run {k : KeyScope} {keys : KeyTable Body} {actions : List (GuardAction Body)}
    (h : (GuardWorld.start keys).Allows (CleanRetry k) actions) :
    Exclusive k ((GuardWorld.start keys).run actions) :=
  GuardWorld.run_invariant (fun _ _ hclean h => h.step hclean) (Exclusive.start k keys) h

/-- In a run with clean retries, at most one handler of the scope is in progress at any moment,
and at most one has answered with success. -/
theorem atMostOnce_of_run {k : KeyScope} {keys : KeyTable Body}
    {actions : List (GuardAction Body)}
    (h : (GuardWorld.start keys).Allows (CleanRetry k) actions) :
    ((GuardWorld.start keys).run actions).AtMostOne k Phase.inProgress ∧
      ((GuardWorld.start keys).run actions).AtMostOne k Phase.succeeded := by
  have hone := (Exclusive.run h).one
  constructor
  · intro i j s t hi hj hs ht hpi hpj
    exact hone i j s t hi hj hs ht (Phase.holds_of_inProgress hpi) (Phase.holds_of_inProgress hpj)
  · intro i j s t hi hj hs ht hpi hpj
    exact hone i j s t hi hj hs ht (Phase.holds_of_succeeded hpi) (Phase.holds_of_succeeded hpj)

/-! ### Sample runs -/

/-- `POST /invoices` of the supplier, with the key "k". -/
def sampleGuarded : GuardedRequest :=
  { method := "POST"
    idempotencyKey := some (.one "k")
    user := some ⟨sampleSupplier, .supplier⟩
    path := "/" }

/-- The scope of `sampleGuarded`. -/
def sampleScope : KeyScope := ⟨"k", sampleSupplier, "/"⟩

/-- A step of the request `i`, with no failure. -/
def guardStep (i : Nat) : GuardAction String := .step i sampleEnv

/-- The first request answers 500, and its key is `FAILED`. -/
def sampleFailure : List (GuardAction String) :=
  [.arrive sampleGuarded, guardStep 0, .answer 0 500 "error", guardStep 0]

/-- A retry after a failure, and then a request that is answered from the cache. -/
def sampleRetry : List (GuardAction String) :=
  sampleFailure ++
    [.arrive sampleGuarded, guardStep 1, guardStep 1, guardStep 1, guardStep 1,
      .answer 1 201 "created", guardStep 1,
      .arrive sampleGuarded, guardStep 2, guardStep 2]

/-- One execution at a time in a run with a clean retry. -/
theorem atMostOnce_of_retry :
    (GuardWorld.start Table.empty).Allows (CleanRetry sampleScope) sampleRetry ∧
    ((GuardWorld.start Table.empty).run sampleRetry).AtMostOne sampleScope Phase.inProgress ∧
    ((GuardWorld.start Table.empty).run sampleRetry).AtMostOne sampleScope Phase.succeeded := by
  have h : (GuardWorld.start Table.empty).Allows (CleanRetry sampleScope) sampleRetry := by
    decide
  exact ⟨h, atMostOnce_of_run h⟩

/-- Two retries that both find the key `FAILED` before one of them deletes it. -/
def sampleRetries : List (GuardAction String) :=
  sampleFailure ++
    [.arrive sampleGuarded, .arrive sampleGuarded, guardStep 1, guardStep 1, guardStep 2,
      guardStep 2, guardStep 1, guardStep 1, guardStep 2, guardStep 2]

/-- Two retries of one failed key are in progress together, and both succeed. -/
theorem retries_execute_twice :
    ¬ ((GuardWorld.start Table.empty).run sampleRetries).AtMostOne sampleScope
      Phase.inProgress ∧
    ¬ ((GuardWorld.start Table.empty).run
        (sampleRetries ++ [.answer 1 201 "first", .answer 2 201 "second"])).AtMostOne
      sampleScope Phase.succeeded := by
  constructor
  · intro h
    have := h 1 2 ⟨sampleScope, .executing true⟩ ⟨sampleScope, .executing true⟩ (by decide)
      (by decide) rfl rfl rfl rfl
    cases this
  · intro h
    have := h 1 2 ⟨sampleScope, .marking 201 "first"⟩ ⟨sampleScope, .marking 201 "second"⟩
      (by decide) (by decide) rfl rfl rfl rfl
    cases this

end Vanguard
