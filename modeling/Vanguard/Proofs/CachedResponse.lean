import Vanguard.Proofs.OneExecution

/-!
# `Vanguard.Proofs.CachedResponse`: one execution and its replays

Runs in which every handler of a scope answers with success and none of its statements fails
(`SuccessfulStep`). The key of the scope is new at first. `Faithful` is the invariant: the
scope is fresh, or one request is being executed, or its answer is in the cache. In the last
two cases every other request waits, has timed out, or has got the cached answer.

`timedOut_of_refused` holds of every run: a request that times out has polled for
`PROCESSING_TIMEOUT_MS`.
-/

set_option autoImplicit false

namespace Vanguard

open ReadCommitted

variable {Body : Type}

/-! ### The runs -/

/-- In the scope `k`, handlers answer with success and no statement fails. -/
def SuccessfulStep (k : KeyScope) (w : GuardWorld Body) : GuardAction Body → Prop
  | .arrive _ => True
  | .step i env => ∀ s ∈ w.sessions[i]?, s.scope = k → env.fault = false
  | .answer i status _ => ∀ s ∈ w.sessions[i]?, s.scope = k → success status = true

/-- The condition on a step reads only the step and the session it is about, so it can
be decided. -/
instance (k : KeyScope) (w : GuardWorld Body) (a : GuardAction Body) :
    Decidable (SuccessfulStep k w a) :=
  match a with
  | .arrive _ => inferInstanceAs (Decidable True)
  | .step i env => inferInstanceAs (Decidable (∀ s ∈ w.sessions[i]?, s.scope = k →
      env.fault = false))
  | .answer i status _ => inferInstanceAs (Decidable (∀ s ∈ w.sessions[i]?, s.scope = k →
      success status = true))

/-- `409 CONCURRENT_REQUEST_TIMEOUT`. -/
def HttpAnswer.IsTimeout (answer : HttpAnswer) : Prop :=
  answer.status = 409 ∧ answer.code = some "CONCURRENT_REQUEST_TIMEOUT"

/-- The handler has been called. -/
def Phase.Executed : Phase Body → Prop
  | executing _ | marking _ _ | done (.answered _ _) => True
  | _ => False

/-- The request has not been answered, except by a timeout, and its handler is not called. -/
def Phase.Waits : Phase Body → Prop
  | insert | select | sleeping _ _ | pollInsert _ | pollSelect _ => True
  | done (.refused answer) => answer.IsTimeout
  | _ => False

/-- The handler runs, or has answered with success. -/
def Phase.Underway : Phase Body → Prop
  | executing _ => True
  | marking status _ => success status = true
  | _ => False

/-- A request that waits has not called its handler. -/
theorem Phase.Waits.not_executed {phase : Phase Body} (h : phase.Waits) : ¬ phase.Executed := by
  cases phase with
  | executing | marking => exact absurd h id
  | done outcome => cases outcome <;> first | exact absurd h id | exact id
  | _ => exact id

/-- A request that is under way has called its handler. -/
theorem Phase.Underway.executed {phase : Phase Body} (h : phase.Underway) : phase.Executed := by
  cases phase with
  | executing | marking => trivial
  | _ => exact absurd h id

/-- Every request of the scope `k`, other than the request `i`, is in a phase of `P`. -/
def GuardWorld.Others (w : GuardWorld Body) (k : KeyScope) (i : Nat) (P : Phase Body → Prop) :
    Prop :=
  ∀ (j : Nat) (t : GuardSession Body), w.sessions[j]? = some t → t.scope = k → j ≠ i →
    P t.phase

/-- The others keep their phases when one request moves. -/
theorem GuardWorld.Others.moveTo {w : GuardWorld Body} {k : KeyScope} {i j : Nat}
    {P : Phase Body → Prop} (h : w.Others k i P) {s : GuardSession Body} {phase : Phase Body}
    {keys : KeyTable Body} (hp : s.scope = k → j ≠ i → P phase) :
    (w.moveTo j s phase keys).Others k i P := by
  intro l t hl ht hne
  rcases moveTo_cases hl with ⟨rfl, rfl⟩ | ⟨-, hold⟩
  · exact hp ht hne
  · exact h l t hold ht hne

/-- A request that arrives is one more of the others, before its INSERT. -/
theorem GuardWorld.Others.arrive {w : GuardWorld Body} {k : KeyScope} {i : Nat}
    {P : Phase Body → Prop} (h : w.Others k i P) (hp : P .insert) (scope : KeyScope) :
    GuardWorld.Others ⟨w.keys, w.sessions ++ [⟨scope, .insert⟩]⟩ k i P := by
  intro l t hl ht hne
  rcases arrive_cases hl with hold | rfl
  · exact h l t hold ht hne
  · exact hp

/-- The request that moved is in its new phase. -/
theorem GuardWorld.moveTo_self {w : GuardWorld Body} {i : Nat} {s : GuardSession Body}
    (hi : w.sessions[i]? = some s) (phase : Phase Body) (keys : KeyTable Body) :
    (w.moveTo i s phase keys).sessions[i]? = some ⟨s.scope, phase⟩ := by
  have hlt : i < w.sessions.length := (List.getElem?_eq_some_iff.mp hi).1
  simp only [moveTo, List.getElem?_set, if_true, hlt]

/-- The other requests are as they were. -/
theorem GuardWorld.moveTo_ne {w : GuardWorld Body} {i j : Nat} (h : j ≠ i)
    (s : GuardSession Body) (phase : Phase Body) (keys : KeyTable Body) :
    (w.moveTo j s phase keys).sessions[i]? = w.sessions[i]? := by
  simp only [moveTo, List.getElem?_set, if_neg h]

/-- The requests there were keep their places. -/
theorem GuardWorld.arrive_old {w : GuardWorld Body} {i : Nat} {s : GuardSession Body}
    (hi : w.sessions[i]? = some s) (new : GuardSession Body) :
    (w.sessions ++ [new])[i]? = some s := by
  rw [List.getElem?_append_left (List.getElem?_eq_some_iff.mp hi).1]
  exact hi

/-- What a successful step can do for the scope `k`: nothing, add a request, move a request of
another scope, let a request of the scope take its next statement, or answer it. -/
inductive ScopeStep (k : KeyScope) (w : GuardWorld Body) : GuardWorld Body → Prop where
  | idle : ScopeStep k w w
  | arrive (scope : KeyScope) : ScopeStep k w ⟨w.keys, w.sessions ++ [⟨scope, .insert⟩]⟩
  | other {j : Nat} {s : GuardSession Body} {phase : Phase Body} {keys : KeyTable Body}
      (hj : w.sessions[j]? = some s) (hs : s.scope ≠ k) (hkeys : keys.get? k = w.keys.get? k) :
      ScopeStep k w (w.moveTo j s phase keys)
  | next {j : Nat} {phase : Phase Body} (hj : w.sessions[j]? = some ⟨k, phase⟩)
      (now : Timestamp) :
      ScopeStep k w
        (w.moveTo j ⟨k, phase⟩ (phase.next k now w.keys).1 (phase.next k now w.keys).2)
  | answer {j status : Nat} {body : Body} {retry : Bool}
      (hj : w.sessions[j]? = some ⟨k, .executing retry⟩) (hsuccess : success status = true) :
      ScopeStep k w (w.moveTo j ⟨k, .executing retry⟩ (.marking status body) w.keys)

/-- A successful step is a step of the scope. -/
theorem SuccessfulStep.scopeStep {k : KeyScope} {w : GuardWorld Body} {a : GuardAction Body}
    (ha : SuccessfulStep k w a) : ScopeStep k w (w.step a) := by
  have hstep := w.stepped a
  generalize w.step a = w' at hstep ⊢
  cases hstep with
  | idle => exact .idle
  | arrive hguard => exact .arrive _
  | @fail j env s hj hfault =>
      -- The failed statement is one of another scope.
      refine .other hj (fun hs => ?_) rfl
      rw [ha s hj hs] at hfault
      cases hfault
  | @next j env s hj hfault =>
      obtain ⟨scope, phase⟩ := s
      by_cases hs : scope = k
      · subst hs
        exact .next hj env.now
      · exact .other hj hs (Phase.next_get?_ne hs _ _ _)
  | @answer j status body scope retry hj =>
      by_cases hs : scope = k
      · subst hs
        have hsuccess : success status = true := ha _ hj rfl
        rw [onAnswer, hsuccess, Bool.true_or, if_pos rfl]
        exact .answer hj hsuccess
      · exact .other hj hs rfl

/-! ### One step of a request that waits -/

/-- A request in the poll loop waits, or has timed out. -/
theorem waits_pollLoop (deadline now : Timestamp) :
    (pollLoop deadline now : Phase Body).Waits := by
  rw [pollLoop]
  split
  · trivial
  · exact ⟨rfl, rfl⟩

/-- A request that waits, and finds a row that is not `FAILED`: it goes on waiting, or gets
the cached answer. -/
theorem Phase.Waits.next {phase : Phase Body} (h : phase.Waits) {keys : KeyTable Body}
    {k : KeyScope} {r : IdempotencyRecord Body} (hr : keys.get? k = some r)
    (hstatus : r.status ≠ .failed) (now : Timestamp) :
    (phase.next k now keys).2 = keys ∧
      ((phase.next k now keys).1.Waits ∨
        r.status = .completed ∧ (phase.next k now keys).1 = cachedResponse r) := by
  -- The row is there: the `INSERT` conflicts and the `SELECT` finds it.
  have hinsert : keys.insertKey k now = none := KeyTable.insertKey_of_some hr now
  have hselect : keys.selectKey k = some r := hr
  cases phase with
  | insert =>
      simp only [Phase.next, hinsert]
      exact ⟨trivial, Or.inl trivial⟩
  | select =>
      simp only [Phase.next, hselect, onExisting]
      refine ⟨trivial, ?_⟩
      split
      · rename_i hc
        exact Or.inr ⟨hc, rfl⟩
      · rename_i hf
        exact absurd hf hstatus
      · exact Or.inl (waits_pollLoop _ _)
  | sleeping deadline wake =>
      refine ⟨rfl, Or.inl ?_⟩
      simp only [Phase.next]
      split <;> trivial
  | pollInsert deadline =>
      simp only [Phase.next, hinsert]
      exact ⟨trivial, Or.inl trivial⟩
  | pollSelect deadline =>
      simp only [Phase.next, hselect, onPolled]
      refine ⟨trivial, ?_⟩
      split
      · rename_i hc
        exact Or.inr ⟨hc, rfl⟩
      · rename_i hf
        exact absurd hf hstatus
      · exact Or.inl (waits_pollLoop _ _)
  | done outcome => exact ⟨rfl, Or.inl h⟩
  | delete | reinsert | reselect | executing | marking => exact absurd h id

/-! ### The cached answer -/

/-- The answer of the request `i` is in the row `r` of the scope `k`. Every other request
waits or has got this answer. -/
structure Cached (k : KeyScope) (r : IdempotencyRecord Body) (i status : Nat) (body : Body)
    (w : GuardWorld Body) : Prop where
  row : w.keys.get? k = some r
  completed : r.status = .completed
  responseStatus : r.responseStatus = some status
  responseBody : r.responseBody = some body
  executed : w.sessions[i]? = some ⟨k, .done (.answered status body)⟩
  others : w.Others k i fun phase => phase.Waits ∨ phase = .done (.replayed status (some body))

section

variable {k : KeyScope} {r : IdempotencyRecord Body} {i status : Nat} {body : Body}
  {w : GuardWorld Body}

/-- From a row with the answer, the answer is replayed. -/
theorem Cached.cachedResponse (h : Cached k r i status body w) :
    cachedResponse r = .done (.replayed status (some body)) := by
  rw [Vanguard.cachedResponse, h.responseStatus, h.responseBody, Option.getD_some]

/-- A row with the answer is not `failed`. -/
theorem Cached.not_failed (h : Cached k r i status body w) : r.status ≠ .failed := by
  rw [h.completed]
  exact KeyStatus.noConfusion

/-- A request of another scope moves. -/
theorem Cached.moveTo_other (h : Cached k r i status body w) {j : Nat} {s : GuardSession Body}
    (hj : w.sessions[j]? = some s) (hs : s.scope ≠ k) {phase : Phase Body}
    {keys : KeyTable Body} (hkeys : keys.get? k = w.keys.get? k) :
    Cached k r i status body (w.moveTo j s phase keys) where
  row := hkeys.trans h.row
  completed := h.completed
  responseStatus := h.responseStatus
  responseBody := h.responseBody
  executed := by
    have hji : j ≠ i := by
      rintro rfl
      rw [h.executed] at hj
      cases hj
      exact hs rfl
    rw [GuardWorld.moveTo_ne hji]
    exact h.executed
  others := h.others.moveTo fun hscope => absurd hscope hs

/-- A request of the scope takes its next step. -/
theorem Cached.next (h : Cached k r i status body w) {j : Nat} {phase : Phase Body}
    (hj : w.sessions[j]? = some ⟨k, phase⟩) (now : Timestamp) :
    Cached k r i status body
      (w.moveTo j ⟨k, phase⟩ (phase.next k now w.keys).1 (phase.next k now w.keys).2) := by
  by_cases hji : j = i
  · -- The request that was executed has ended.
    subst hji
    rw [h.executed] at hj
    obtain rfl : Phase.done (.answered status body) = phase := by
      cases hj
      rfl
    exact ⟨h.row, h.completed, h.responseStatus, h.responseBody,
      GuardWorld.moveTo_self h.executed _ _, h.others.moveTo fun _ hne => absurd rfl hne⟩
  · rcases h.others j _ hj rfl hji with hwaits | rfl
    · obtain ⟨hkeys, hnext⟩ := hwaits.next h.row h.not_failed now
      rw [hkeys]
      refine ⟨h.row, h.completed, h.responseStatus, h.responseBody, ?_, ?_⟩
      · rw [GuardWorld.moveTo_ne hji]
        exact h.executed
      · exact h.others.moveTo fun _ _ => hnext.imp id fun hc => hc.2.trans h.cachedResponse
    · -- A replay has ended, and stays where it is.
      refine ⟨h.row, h.completed, h.responseStatus, h.responseBody, ?_, ?_⟩
      · rw [GuardWorld.moveTo_ne hji]
        exact h.executed
      · exact h.others.moveTo fun _ _ => Or.inr rfl

/-- The cached answer stays. -/
theorem Cached.step (h : Cached k r i status body w) {w' : GuardWorld Body}
    (hstep : ScopeStep k w w') : Cached k r i status body w' := by
  cases hstep with
  | idle => exact h
  | arrive scope =>
      exact ⟨h.row, h.completed, h.responseStatus, h.responseBody,
        GuardWorld.arrive_old h.executed _, h.others.arrive (Or.inl trivial) _⟩
  | other hj hs hkeys => exact h.moveTo_other hj hs hkeys
  | next hj now => exact h.next hj now
  | @answer j _ _ _ hj _ =>
      -- No handler of the scope runs.
      by_cases hji : j = i
      · subst hji
        rw [h.executed] at hj
        cases hj
      · rcases h.others j _ hj rfl hji with hwaits | hreplayed
        · exact absurd hwaits id
        · cases hreplayed

end

/-! ### The invariant -/

/-- The scope `k` is fresh, or one of its requests is being executed, or its answer is in the
cache. -/
inductive Faithful (k : KeyScope) (w : GuardWorld Body) : Prop where
  | fresh (hrow : w.keys.get? k = none)
      (hidle : ∀ s ∈ w.sessions, s.scope = k → s.phase = .insert)
  | running (r : IdempotencyRecord Body) (i : Nat) (phase : Phase Body)
      (hrow : w.keys.get? k = some r) (hstatus : r.status = .processing)
      (hi : w.sessions[i]? = some ⟨k, phase⟩) (hphase : phase.Underway)
      (hothers : w.Others k i Phase.Waits)
  | cached (r : IdempotencyRecord Body) (i status : Nat) (body : Body)
      (h : Cached k r i status body w)

section

variable {k : KeyScope} {w : GuardWorld Body}

/-- With no row of the scope, nothing has to be faithful yet. -/
theorem Faithful.start (k : KeyScope) {keys : KeyTable Body} (hk : keys.get? k = none) :
    Faithful k (GuardWorld.start keys) :=
  .fresh hk fun _ hs => nomatch hs

/-- A request of another scope moves. -/
theorem Faithful.moveTo_other (h : Faithful k w) {j : Nat} {s : GuardSession Body}
    (hj : w.sessions[j]? = some s) (hs : s.scope ≠ k) {phase : Phase Body}
    {keys : KeyTable Body} (hkeys : keys.get? k = w.keys.get? k) :
    Faithful k (w.moveTo j s phase keys) := by
  cases h with
  | fresh hrow hidle =>
      refine .fresh (hkeys.trans hrow) fun t ht hscope => ?_
      obtain ⟨l, hl⟩ := List.mem_iff_getElem?.mp ht
      rcases GuardWorld.moveTo_cases hl with ⟨-, rfl⟩ | ⟨-, hold⟩
      · exact absurd hscope hs
      · exact hidle t (List.mem_of_getElem? hold) hscope
  | running r i phase' hrow hstatus hi hphase hothers =>
      refine .running r i phase' (hkeys.trans hrow) hstatus ?_ hphase
        (hothers.moveTo fun hscope => absurd hscope hs)
      have hji : j ≠ i := by
        rintro rfl
        rw [hi] at hj
        cases hj
        exact hs rfl
      rw [GuardWorld.moveTo_ne hji]
      exact hi
  | cached r i status body h => exact .cached r i status body (h.moveTo_other hj hs hkeys)

/-- The first statement of the scope: the request inserts the row, and is executed. -/
theorem Faithful.inserted (hrow : w.keys.get? k = none)
    (hidle : ∀ s ∈ w.sessions, s.scope = k → s.phase = .insert) {j : Nat}
    {phase : Phase Body} (hj : w.sessions[j]? = some ⟨k, phase⟩) (now : Timestamp) :
    Faithful k
      (w.moveTo j ⟨k, phase⟩ (phase.next k now w.keys).1 (phase.next k now w.keys).2) := by
  obtain rfl : phase = .insert := hidle _ (List.mem_of_getElem? hj) rfl
  obtain ⟨r, hr⟩ := Option.isSome_iff_exists.mp (KeyTable.insertKey_of_none now hrow)
  obtain ⟨-, hscope, hstatus⟩ := KeyTable.insertKey_eq_some hr
  simp only [Phase.next, hr]
  -- The request goes on to its handler. The others are still before their own `INSERT`.
  refine .running r j (.executing false) ?_ hstatus (GuardWorld.moveTo_self hj _ _) trivial ?_
  · show (w.keys.put r).get? k = some r
    rw [← hscope, Table.get?_put_self]
  · intro l t hl ht hne
    rcases GuardWorld.moveTo_cases hl with ⟨hlj, -⟩ | ⟨-, hold⟩
    · exact absurd hlj hne
    · rw [hidle t (List.mem_of_getElem? hold) ht]
      trivial

/-- The next step of the request that is executed: it records its answer. -/
theorem Faithful.executed {r : IdempotencyRecord Body} {j : Nat} {phase : Phase Body}
    (hrow : w.keys.get? k = some r) (hstatus : r.status = .processing)
    (hj : w.sessions[j]? = some ⟨k, phase⟩) (hphase : phase.Underway)
    (hothers : w.Others k j Phase.Waits) (now : Timestamp) :
    Faithful k
      (w.moveTo j ⟨k, phase⟩ (phase.next k now w.keys).1 (phase.next k now w.keys).2) := by
  cases phase with
  | executing retry =>
      -- The handler has not answered yet.
      exact .running r j (.executing retry) hrow hstatus (GuardWorld.moveTo_self hj _ _) trivial
        (hothers.moveTo fun _ hne => absurd rfl hne)
  | marking status body =>
      -- `markCompleted` puts the answer into the cache.
      have hsuccess : success status = true := hphase
      have hput := KeyTable.get?_markCompleted hrow status body now
      simp only [Phase.next, hsuccess, if_true]
      refine .cached _ j status body ⟨hput, rfl, rfl, rfl, GuardWorld.moveTo_self hj _ _, ?_⟩
      intro l t hl ht hne
      rcases GuardWorld.moveTo_cases hl with ⟨hlj, -⟩ | ⟨-, hold⟩
      · exact absurd hlj hne
      · exact Or.inl (hothers l t hold ht hne)
  | _ => exact absurd hphase id

/-- One step keeps the invariant. -/
theorem Faithful.step (h : Faithful k w) {w' : GuardWorld Body} (hstep : ScopeStep k w w') :
    Faithful k w' := by
  cases hstep with
  | idle => exact h
  | other hj hs hkeys => exact h.moveTo_other hj hs hkeys
  | arrive scope =>
      cases h with
      | fresh hrow hidle =>
          refine .fresh hrow fun t ht hscope => ?_
          rcases List.mem_append.mp ht with hold | hnew
          · exact hidle t hold hscope
          · rw [List.mem_singleton.mp hnew]
      | running r i phase hrow hstatus hi hphase hothers =>
          exact .running r i phase hrow hstatus (GuardWorld.arrive_old hi _) hphase
            (hothers.arrive trivial _)
      | cached r i status body h => exact .cached r i status body (h.step (.arrive scope))
  | @next j phase hj now =>
      cases h with
      | fresh hrow hidle => exact .inserted hrow hidle hj now
      | running r i phase' hrow hstatus hi hphase hothers =>
          by_cases hji : j = i
          · subst hji
            rw [hi] at hj
            cases hj
            exact .executed hrow hstatus hi hphase hothers now
          · -- The other requests wait, and the row is not completed.
            obtain ⟨hkeys, hnext⟩ := (hothers j _ hj rfl hji).next hrow
              (by rw [hstatus]; exact KeyStatus.noConfusion) now
            rw [hkeys]
            refine .running r i phase' hrow hstatus ?_ hphase (hothers.moveTo fun _ _ => ?_)
            · rw [GuardWorld.moveTo_ne hji]
              exact hi
            · refine hnext.resolve_right fun hc => ?_
              rw [hstatus] at hc
              cases hc.1
      | cached r i status body h => exact .cached r i status body (h.next hj now)
  | @answer j status body retry hj hsuccess =>
      cases h with
      -- Only the request that is executed has a handler that can answer.
      | fresh hrow hidle => cases hidle _ (List.mem_of_getElem? hj) rfl
      | running r i phase hrow hstatus hi hphase hothers =>
          by_cases hji : j = i
          · subst hji
            exact .running r j (.marking status body) hrow hstatus (GuardWorld.moveTo_self hj _ _)
              hsuccess (hothers.moveTo fun _ hne => absurd rfl hne)
          · exact absurd (hothers j _ hj rfl hji) id
      | cached r i status' body' h =>
          exact .cached r i status' body' (h.step (.answer hj hsuccess))

/-- A run whose steps succeed stays faithful. -/
theorem Faithful.run (h : Faithful k w) {actions : List (GuardAction Body)}
    (hok : w.Allows (SuccessfulStep k) actions) : Faithful k (w.run actions) :=
  GuardWorld.run_invariant (fun _ _ ha h => h.step ha.scopeStep) h hok

end

/-! ### Later requests -/

/-- The answer is in the cache, and the requests of `later` have got it or are still before
the end of their first lookup. -/
structure AnsweredLater (k : KeyScope) (later : Nat → Prop) (r : IdempotencyRecord Body)
    (i status : Nat) (body : Body) (w : GuardWorld Body) : Prop where
  cached : Cached k r i status body w
  later : ∀ (j : Nat) (s : GuardSession Body), w.sessions[j]? = some s → s.scope = k →
    later j → s.phase = .insert ∨ s.phase = .select ∨
      s.phase = .done (.replayed status (some body))

section

variable {k : KeyScope} {r : IdempotencyRecord Body} {i status : Nat} {body : Body}
  {w : GuardWorld Body} {later : Nat → Prop}

/-- The first lookup of a request finds the cached answer. -/
theorem Cached.lookup (h : Cached k r i status body w) (now : Timestamp) :
    (Phase.insert.next k now w.keys).1 = .select ∧
      (Phase.select.next k now w.keys).1 = .done (.replayed status (some body)) := by
  have hselect : w.keys.selectKey k = some r := h.row
  constructor
  · simp only [Phase.next, KeyTable.insertKey_of_some h.row now]
  · simp only [Phase.next, hselect, onExisting, h.completed]
    exact h.cachedResponse

/-- Later requests stay answered along a step. -/
theorem AnsweredLater.step (h : AnsweredLater k later r i status body w) {w' : GuardWorld Body}
    (hstep : ScopeStep k w w') : AnsweredLater k later r i status body w' := by
  refine ⟨h.cached.step hstep, fun l t hl ht hlater => ?_⟩
  cases hstep with
  | idle => exact h.later l t hl ht hlater
  | arrive scope =>
      rcases GuardWorld.arrive_cases hl with hold | rfl
      · exact h.later l t hold ht hlater
      · exact Or.inl rfl
  | other hj hs hkeys =>
      rcases GuardWorld.moveTo_cases hl with ⟨rfl, rfl⟩ | ⟨-, hold⟩
      · exact absurd ht hs
      · exact h.later l t hold ht hlater
  | next hj now =>
      rcases GuardWorld.moveTo_cases hl with ⟨rfl, rfl⟩ | ⟨-, hold⟩
      · -- From the conflicting `INSERT` to the `SELECT`, and from there to the replay.
        rcases h.later l _ hj rfl hlater with rfl | rfl | rfl
        · exact Or.inr (Or.inl (h.cached.lookup now).1)
        · exact Or.inr (Or.inr (h.cached.lookup now).2)
        · exact Or.inr (Or.inr rfl)
      · exact h.later l t hold ht hlater
  | answer hj hsuccess =>
      rcases GuardWorld.moveTo_cases hl with ⟨rfl, rfl⟩ | ⟨-, hold⟩
      · rcases h.later l _ hj rfl hlater with hp | hp | hp <;> cases hp
      · exact h.later l t hold ht hlater

/-- Later requests stay answered along a run. -/
theorem AnsweredLater.run (h : AnsweredLater k later r i status body w)
    {actions : List (GuardAction Body)} (hok : w.Allows (SuccessfulStep k) actions) :
    AnsweredLater k later r i status body (w.run actions) :=
  GuardWorld.run_invariant (fun _ _ ha h => h.step ha.scopeStep) h hok

/-- A replayed answer is the cached one. -/
theorem Faithful.cached_of_replayed (h : Faithful k w) {t : GuardSession Body}
    (ht : t ∈ w.sessions) (hscope : t.scope = k) {st : Nat} {b : Option Body}
    (hphase : t.phase = .done (.replayed st b)) :
    ∃ r i body, b = some body ∧ Cached k r i st body w := by
  obtain ⟨j, hj⟩ := List.mem_iff_getElem?.mp ht
  obtain ⟨scope, phase⟩ := t
  obtain rfl : phase = _ := hphase
  obtain rfl : scope = k := hscope
  cases h with
  | fresh hrow hidle => cases hidle _ ht rfl
  | running r i phase hrow hstatus hi hunderway hothers =>
      by_cases hji : j = i
      · subst hji
        rw [hi] at hj
        cases hj
        exact absurd hunderway id
      · exact absurd (hothers j _ hj rfl hji) id
  | cached r i status body h =>
      by_cases hji : j = i
      · subst hji
        rw [h.executed] at hj
        cases hj
      · rcases h.others j _ hj rfl hji with hwaits | hreplayed
        · exact absurd hwaits id
        · cases hreplayed
          exact ⟨r, i, body, rfl, h⟩

end

/-! ### The polling deadline -/

/-- The deadline of a request that polls. -/
def Phase.deadline? : Phase Body → Option Timestamp
  | sleeping deadline _ | pollInsert deadline | pollSelect deadline => some deadline
  | _ => none

/-- The request `i` has found a row that is being processed, and polls until the deadline. -/
def PollsUntil (keys : KeyTable Body) (actions : List (GuardAction Body)) (i : Nat)
    (deadline : Timestamp) : Prop :=
  ∃ first env rest s, actions = first ++ .step i env :: rest ∧
    ((GuardWorld.start keys).run first).sessions[i]? = some s ∧ s.phase = .select ∧
    deadline = env.now + processingTimeoutMs

/-- The request `i` has polled until a time that is not before its deadline. -/
def TimedOut (keys : KeyTable Body) (actions : List (GuardAction Body)) (i : Nat) : Prop :=
  ∃ first env rest deadline, actions = first ++ .step i env :: rest ∧
    PollsUntil keys first i deadline ∧ deadline ≤ env.now

section

variable {keys : KeyTable Body} {actions : List (GuardAction Body)} {i : Nat}

/-- One more action does not change what a request polls for. -/
theorem PollsUntil.append {deadline : Timestamp} (h : PollsUntil keys actions i deadline)
    (a : GuardAction Body) : PollsUntil keys (actions ++ [a]) i deadline := by
  obtain ⟨first, env, rest, s, rfl, hs⟩ := h
  exact ⟨first, env, rest ++ [a], s, by rw [List.append_assoc, List.cons_append], hs⟩

/-- One more action does not change that a request has timed out. -/
theorem TimedOut.append (h : TimedOut keys actions i) (a : GuardAction Body) :
    TimedOut keys (actions ++ [a]) i := by
  obtain ⟨first, env, rest, deadline, rfl, hs⟩ := h
  exact ⟨first, env, rest ++ [a], deadline, by rw [List.append_assoc, List.cons_append], hs⟩

end

/-- The poll loop keeps its deadline. -/
theorem deadline_pollLoop {deadline now d : Timestamp}
    (h : (pollLoop deadline now : Phase Body).deadline? = some d) : d = deadline := by
  rw [pollLoop] at h
  split at h
  · exact (Option.some.inj h).symm
  · cases h

/-- The poll loop refuses only when the deadline has passed. -/
theorem refused_pollLoop {deadline now : Timestamp} {answer : HttpAnswer}
    (h : (pollLoop deadline now : Phase Body) = .done (.refused answer)) : deadline ≤ now := by
  rw [pollLoop] at h
  split at h
  · cases h
  · rename_i hlate
    exact not_lt.mp hlate

section

variable {scope : KeyScope} {now : Timestamp} {keys : KeyTable Body} {phase : Phase Body}

/-- What a poll finds does not move the deadline. -/
theorem deadline_onPolled {deadline d : Timestamp} {record : Option (IdempotencyRecord Body)}
    (h : (onPolled deadline now record).deadline? = some d) : d = deadline := by
  cases record with
  | none => cases h
  | some r =>
      rw [onPolled] at h
      split at h
      · cases h
      · cases h
      · exact deadline_pollLoop h

/-- A poll answers with a timeout only when the deadline has passed. -/
theorem refused_onPolled {deadline : Timestamp} {record : Option (IdempotencyRecord Body)}
    {answer : HttpAnswer} (h : onPolled deadline now record = .done (.refused answer))
    (hanswer : answer.IsTimeout) : deadline ≤ now := by
  cases record with
  | none => cases h
  | some r =>
      rw [onPolled] at h
      split at h
      · cases h
      · -- The other refusal has another code.
        cases h
        exact absurd hanswer.2 (by decide)
      · exact refused_pollLoop h

/-- A deadline is set by the first lookup, and then kept. -/
theorem Phase.deadline_next {d : Timestamp}
    (h : (phase.next scope now keys).1.deadline? = some d) :
    phase.deadline? = some d ∨ phase = .select ∧ d = now + processingTimeoutMs := by
  cases phase with
  | select =>
      simp only [next, onExisting] at h
      split at h
      · cases h
      · split at h
        · cases h
        · cases h
        · exact Or.inr ⟨rfl, deadline_pollLoop h⟩
  | sleeping deadline wake =>
      simp only [next] at h
      split at h <;> exact Or.inl h
  | pollInsert deadline =>
      simp only [next] at h
      split at h
      · -- The retried `INSERT` conflicts, and the row it finds is looked at.
        change (onPolled deadline now (some _)).deadline? = some d at h
        rw [deadline_onPolled h]
        exact Or.inl rfl
      · exact Or.inl h
  | pollSelect deadline =>
      rw [deadline_onPolled h]
      exact Or.inl rfl
  | insert | reinsert =>
      simp only [next] at h
      split at h <;> cases h
  | delete | reselect | executing | marking | done => cases h

/-- A timeout comes when the deadline has passed. -/
theorem Phase.refused_next {answer : HttpAnswer}
    (h : (phase.next scope now keys).1 = .done (.refused answer))
    (hanswer : answer.IsTimeout) :
    phase = .done (.refused answer) ∨ ∃ d, phase.deadline? = some d ∧ d ≤ now := by
  cases phase with
  | select =>
      simp only [next, onExisting] at h
      split at h
      · cases h
      · split at h
        · cases h
        · cases h
        · -- The deadline is ahead when the poll loop begins.
          exact absurd (refused_pollLoop h) (not_le.mpr (lt_add_of_pos_right now (by decide)))
  | sleeping deadline wake =>
      simp only [next] at h
      split at h <;> cases h
  | pollInsert deadline =>
      simp only [next] at h
      split at h
      · change onPolled deadline now (some _) = .done (.refused answer) at h
        exact Or.inr ⟨deadline, rfl, refused_onPolled h hanswer⟩
      · cases h
  | pollSelect deadline => exact Or.inr ⟨deadline, rfl, refused_onPolled h hanswer⟩
  | done outcome => exact Or.inl h
  | insert | reinsert =>
      simp only [next] at h
      split at h <;> cases h
  | delete | reselect | executing | marking => cases h

/-- A failed statement does not move the deadline. -/
theorem Phase.deadline_fail {d : Timestamp} (h : phase.fail.deadline? = some d) :
    phase.deadline? = some d := by
  cases phase with
  | sleeping => exact h
  | _ => cases h

/-- A failed statement makes no refusal. -/
theorem Phase.refused_fail {answer : HttpAnswer} (h : phase.fail = .done (.refused answer)) :
    phase = .done (.refused answer) := by
  cases phase with
  | done => exact h
  | _ => cases h

/-- A handler that answers has been called. -/
theorem onAnswer_executed (retry : Bool) (status : Nat) (body : Body) :
    (onAnswer retry status body).Executed := by
  rw [onAnswer]
  split <;> trivial

end

/-- A request that polls does so until its deadline, and one that has timed out has done so. -/
theorem timedOut_of_refused (keys : KeyTable Body) (actions : List (GuardAction Body)) :
    ∀ (i : Nat) (s : GuardSession Body),
      ((GuardWorld.start keys).run actions).sessions[i]? = some s →
      (∀ d, s.phase.deadline? = some d → PollsUntil keys actions i d) ∧
      (∀ answer, s.phase = .done (.refused answer) → answer.IsTimeout →
        TimedOut keys actions i) := by
  induction actions using List.reverseRecOn with
  | nil =>
      intro i s hi
      cases hi
  | append_singleton actions a ih =>
      -- The requests that do not move keep what they have.
      have hold : ∀ (i : Nat) (s : GuardSession Body),
          ((GuardWorld.start keys).run actions).sessions[i]? = some s →
          (∀ d, s.phase.deadline? = some d → PollsUntil keys (actions ++ [a]) i d) ∧
          (∀ answer, s.phase = .done (.refused answer) → answer.IsTimeout →
            TimedOut keys (actions ++ [a]) i) := fun i s hi =>
        ⟨fun d hd => ((ih i s hi).1 d hd).append a,
          fun answer hp ht => ((ih i s hi).2 answer hp ht).append a⟩
      rw [GuardWorld.run_append]
      show ∀ i s, (((GuardWorld.start keys).run actions).step a).sessions[i]? = some s → _
      have hstep := ((GuardWorld.start keys).run actions).stepped a
      generalize ((GuardWorld.start keys).run actions).step a = w' at hstep ⊢
      intro i s hi
      cases hstep with
      | idle => exact hold i s hi
      | arrive hguard =>
          rcases GuardWorld.arrive_cases hi with hi | rfl
          · exact hold i s hi
          · constructor
            · intro d hd
              cases hd
            · intro answer hp
              cases hp
      | @fail j env t hj hfault =>
          rcases GuardWorld.moveTo_cases hi with ⟨rfl, rfl⟩ | ⟨-, hi⟩
          · exact ⟨fun d hd => (hold i t hj).1 d (Phase.deadline_fail hd),
              fun answer hp => (hold i t hj).2 answer (Phase.refused_fail hp)⟩
          · exact hold i s hi
      | @next j env t hj hfault =>
          rcases GuardWorld.moveTo_cases hi with ⟨rfl, rfl⟩ | ⟨-, hi⟩
          · constructor
            · intro d hd
              rcases Phase.deadline_next hd with hd | ⟨hselect, rfl⟩
              · exact (hold i t hj).1 d hd
              · -- The deadline has been set in this step.
                exact ⟨actions, env, [], t, rfl, hj, hselect, rfl⟩
            · intro answer hp hanswer
              rcases Phase.refused_next hp hanswer with hp | ⟨d, hd, hnow⟩
              · exact (hold i t hj).2 answer hp hanswer
              · -- The request has been refused in this step.
                exact ⟨actions, env, [], d, rfl, (ih i t hj).1 d hd, hnow⟩
          · exact hold i s hi
      | @answer j status body scope retry hj =>
          rcases GuardWorld.moveTo_cases hi with ⟨rfl, rfl⟩ | ⟨-, hi⟩
          · -- A handler that answers leads to no poll and to no timeout.
            have hexecuted := onAnswer_executed retry status body
            constructor
            · intro d hd
              dsimp only at hd
              generalize onAnswer retry status body = phase at hexecuted hd
              cases phase with
              | sleeping | pollInsert | pollSelect => exact absurd hexecuted id
              | _ => cases hd
            · intro answer hp
              dsimp only at hp
              rw [hp] at hexecuted
              exact absurd hexecuted id
          · exact hold i s hi

/-! ### Fidelity -/

/-- The handler of exactly one request of the scope has been called. -/
def GuardWorld.ExecutedOnce (w : GuardWorld Body) (k : KeyScope) : Prop :=
  ∃! i : Nat, ∃ s : GuardSession Body, w.sessions[i]? = some s ∧ s.scope = k ∧ s.phase.Executed

/-- The request `j` has not arrived, or its first lookup has not ended. -/
def GuardWorld.LooksUpLater (w : GuardWorld Body) (j : Nat) : Prop :=
  ∀ t ∈ w.sessions[j]?, t.phase = .insert ∨ t.phase = .select

/-- The request has got the replay, or its first lookup is on the way to it. -/
def GuardWorld.GetsReplay (w : GuardWorld Body) (s : GuardSession Body) (status : Nat)
    (body : Option Body) : Prop :=
  (s.phase = .insert ∧ ∀ now, (s.phase.next s.scope now w.keys).1 = .select) ∨
    (s.phase = .select ∧
      ∀ now, (s.phase.next s.scope now w.keys).1 = .done (.replayed status body)) ∨
    s.phase = .done (.replayed status body)

section

variable {k : KeyScope} {w : GuardWorld Body}

/-- One request has called its handler and the others have not: this is one
execution. -/
theorem GuardWorld.ExecutedOnce.of_others {i : Nat} {phase : Phase Body}
    (hi : w.sessions[i]? = some ⟨k, phase⟩) (hphase : phase.Executed)
    (hothers : w.Others k i fun phase => ¬ phase.Executed) : w.ExecutedOnce k := by
  refine ⟨i, ⟨_, hi, rfl, hphase⟩, fun j ⟨t, hj, ht, hexecuted⟩ => ?_⟩
  by_contra hji
  exact hothers j t hj ht hji hexecuted

/-- After the first statement of the scope, one handler has been called. -/
theorem Faithful.executedOnce (h : Faithful k w)
    (hstarted : ∃ s ∈ w.sessions, s.scope = k ∧ s.phase ≠ .insert) : w.ExecutedOnce k := by
  cases h with
  | fresh hrow hidle =>
      obtain ⟨s, hs, hscope, hphase⟩ := hstarted
      exact absurd (hidle s hs hscope) hphase
  | running r i phase hrow hstatus hi hunderway hothers =>
      exact .of_others hi hunderway.executed fun j t hj ht hne =>
        (hothers j t hj ht hne).not_executed
  | cached r i status body h =>
      refine .of_others h.executed trivial fun j t hj ht hne => ?_
      rcases h.others j t hj ht hne with hwaits | hreplayed
      · exact hwaits.not_executed
      · rw [hreplayed]
        exact id

/-- The answer of a request: that of its own execution, the one of the execution from the
cache, or a timeout. -/
theorem Faithful.outcome (h : Faithful k w) {i : Nat} {outcome : Outcome Body}
    (hi : w.sessions[i]? = some ⟨k, .done outcome⟩) :
    (∃ status body, outcome = .answered status body) ∨
      (∃ (e status : Nat) (body : Body),
        w.sessions[e]? = some ⟨k, .done (.answered status body)⟩ ∧
        outcome = .replayed status (some body)) ∨
      ∃ answer, outcome = .refused answer ∧ answer.IsTimeout := by
  have hwaits : (Phase.done outcome).Waits →
      ∃ answer, outcome = .refused answer ∧ answer.IsTimeout := by
    intro hwaits
    cases outcome with
    | refused answer => exact ⟨answer, rfl, hwaits⟩
    | _ => exact absurd hwaits id
  cases h with
  | fresh hrow hidle => cases hidle _ (List.mem_of_getElem? hi) rfl
  | running r e phase hrow hstatus he hunderway hothers =>
      by_cases hie : i = e
      · subst hie
        rw [he] at hi
        cases hi
        exact absurd hunderway id
      · exact Or.inr (Or.inr (hwaits (hothers i _ hi rfl hie)))
  | cached r e status body h =>
      by_cases hie : i = e
      · subst hie
        rw [h.executed] at hi
        cases hi
        exact Or.inl ⟨status, body, rfl⟩
      · rcases h.others i _ hi rfl hie with hw | hreplayed
        · exact Or.inr (Or.inr (hwaits hw))
        · cases hreplayed
          exact Or.inr (Or.inl ⟨e, status, body, h.executed, rfl⟩)

end

/-- Every handler of the scope answers with success, no statement of the scope fails, and the
key is new. From the first statement on, exactly one request is executed. A request that is
answered is the executed one, or gets its answer from the cache, or has timed out after
polling until its deadline. Once a request has been answered by a replay, the requests whose
first lookup ends later get the same replay. -/
theorem replay_fidelity {k : KeyScope} {keys : KeyTable Body} (hk : keys.get? k = none)
    {actions : List (GuardAction Body)}
    (h : (GuardWorld.start keys).Allows (SuccessfulStep k) actions) :
    let w := (GuardWorld.start keys).run actions
    ((∃ s ∈ w.sessions, s.scope = k ∧ s.phase ≠ .insert) → w.ExecutedOnce k) ∧
    (∀ (i : Nat) (outcome : Outcome Body), w.sessions[i]? = some ⟨k, .done outcome⟩ →
      (∃ status body, outcome = .answered status body) ∨
      (∃ (e status : Nat) (body : Body),
        w.sessions[e]? = some ⟨k, .done (.answered status body)⟩ ∧
        outcome = .replayed status (some body)) ∨
      ∃ answer, outcome = .refused answer ∧ answer.IsTimeout ∧ TimedOut keys actions i) ∧
    (∀ first rest, actions = first ++ rest → ∀ status body,
      (∃ t ∈ ((GuardWorld.start keys).run first).sessions,
        t.scope = k ∧ t.phase = .done (.replayed status body)) →
      ∀ (j : Nat) (s : GuardSession Body), w.sessions[j]? = some s → s.scope = k →
        ((GuardWorld.start keys).run first).LooksUpLater j → w.GetsReplay s status body) := by
  intro w
  have hfaithful : Faithful k w := (Faithful.start k hk).run h
  refine ⟨hfaithful.executedOnce, ?_, ?_⟩
  · intro i outcome hi
    refine (hfaithful.outcome hi).imp_right (Or.imp_right ?_)
    intro ⟨answer, houtcome, htimeout⟩
    subst houtcome
    exact ⟨answer, rfl, htimeout,
      (timedOut_of_refused keys actions i _ hi).2 answer rfl htimeout⟩
  · intro first rest hsplit status body hreplayed j s hj hs hlater
    rw [hsplit, GuardWorld.allows_append] at h
    -- At the replay the answer is in the cache, and from there on it stays.
    have hfirst : Faithful k ((GuardWorld.start keys).run first) :=
      (Faithful.start k hk).run h.1
    obtain ⟨t, ht, hscope, hphase⟩ := hreplayed
    obtain ⟨r, i, b, rfl, hcached⟩ := hfirst.cached_of_replayed ht hscope hphase
    have hbegin : AnsweredLater k ((GuardWorld.start keys).run first).LooksUpLater r i status b
        ((GuardWorld.start keys).run first) := by
      refine ⟨hcached, fun l u hl _ hlater => ?_⟩
      rcases hlater u hl with hu | hu
      · exact Or.inl hu
      · exact Or.inr (Or.inl hu)
    have hend : AnsweredLater k ((GuardWorld.start keys).run first).LooksUpLater r i status b
        w := by
      have hrun := hbegin.run h.2
      rw [← GuardWorld.run_append, ← hsplit] at hrun
      exact hrun
    obtain ⟨scope, phase⟩ := s
    obtain rfl : scope = k := hs
    rcases hend.later j _ hj rfl hlater with rfl | rfl | rfl
    · exact Or.inl ⟨rfl, fun now => (hend.cached.lookup now).1⟩
    · exact Or.inr (Or.inl ⟨rfl, fun now => (hend.cached.lookup now).2⟩)
    · exact Or.inr (Or.inr rfl)

/-- A request, one that finds it in progress and polls, and one that comes after it. -/
def sampleReplays : List (GuardAction String) :=
  [.arrive sampleGuarded, guardStep 0, .arrive sampleGuarded, guardStep 1, guardStep 1,
    .answer 0 201 "created", guardStep 0, .arrive sampleGuarded, guardStep 2, guardStep 2]

/-- The fidelity of the cache in a run with three requests. -/
theorem replay_fidelity_of_sample :
    (GuardWorld.start Table.empty).Allows (SuccessfulStep sampleScope) sampleReplays ∧
      ((GuardWorld.start Table.empty).run sampleReplays).ExecutedOnce sampleScope := by
  have h : (GuardWorld.start Table.empty).Allows (SuccessfulStep sampleScope)
      sampleReplays := by decide
  refine ⟨h, (replay_fidelity rfl h).1 ⟨⟨sampleScope, .done (.replayed 201 (some "created"))⟩, ?_⟩⟩
  decide

end Vanguard
