import Vanguard.Proofs.Retries

/-!
# `Vanguard.Proofs.KeyIsolation`: scopes do not interfere

`history k w actions` is what the scope `k` sees of a run: its requests, their steps with
their clock readings and failures, and the answers of their handlers, each with the number of
the request within the scope. `Agree` relates a world to a second one that has the same row of
the scope, and only the requests of the scope. It is a simulation: an action that the scope
does not see keeps it, and an action that it sees is done on both sides (`Agree.run`). So a
run leaves the scope in a state that its history determines (`scope_isolated`).
-/

set_option autoImplicit false

namespace Vanguard

open ReadCommitted

/-! ### The number of an element within a filtered list -/

section

variable {α : Type} {p : α → Bool} {l : List α} {i : Nat} {x y : α}

/-- The element at `i` splits the filtered list. -/
theorem filter_eq_of_getElem? (h : l[i]? = some x) (hx : p x = true) :
    l.filter p = (l.take i).filter p ++ x :: (l.drop (i + 1)).filter p := by
  obtain ⟨hlt, hget⟩ := List.getElem?_eq_some_iff.mp h
  have hsplit : l = l.take i ++ x :: l.drop (i + 1) := by
    rw [← hget, ← List.drop_eq_getElem_cons hlt, List.take_append_drop]
  calc l.filter p
      = (l.take i ++ x :: l.drop (i + 1)).filter p := congrArg _ hsplit
    _ = (l.take i).filter p ++ x :: (l.drop (i + 1)).filter p := by
        rw [List.filter_append, List.filter_cons_of_pos hx]

/-- An element that passes the filter is at the place the filter counts for it. -/
theorem getElem?_filter_of_getElem? (h : l[i]? = some x) (hx : p x = true) :
    (l.filter p)[((l.take i).filter p).length]? = some x := by
  rw [filter_eq_of_getElem? h hx, List.getElem?_append_right (le_refl _), Nat.sub_self]
  rfl

/-- Replacing an element that passes by one that passes is a replacement after the filter. -/
theorem filter_set_of_pos (h : l[i]? = some x) (hx : p x = true) (hy : p y = true) :
    (l.set i y).filter p = (l.filter p).set ((l.take i).filter p).length y := by
  have hlt : i < l.length := (List.getElem?_eq_some_iff.mp h).1
  rw [filter_eq_of_getElem? h hx, List.set_append_right _ _ (le_refl _), Nat.sub_self,
    List.set_cons_zero, List.set_eq_take_append_cons_drop, if_pos hlt, List.filter_append,
    List.filter_cons_of_pos hy]

/-- Replacing elements that do not pass is not seen after the filter. -/
theorem filter_set_of_neg (h : l[i]? = some x) (hx : p x = false) (hy : p y = false) :
    (l.set i y).filter p = l.filter p := by
  obtain ⟨hlt, hget⟩ := List.getElem?_eq_some_iff.mp h
  have hsplit : l = l.take i ++ x :: l.drop (i + 1) := by
    rw [← hget, ← List.drop_eq_getElem_cons hlt, List.take_append_drop]
  calc (l.set i y).filter p
      = (l.take i ++ y :: l.drop (i + 1)).filter p := by
        rw [List.set_eq_take_append_cons_drop, if_pos hlt]
    _ = (l.take i ++ x :: l.drop (i + 1)).filter p := by
        rw [List.filter_append, List.filter_append, List.filter_cons, List.filter_cons, hx, hy]
        rfl
    _ = l.filter p := congrArg _ hsplit.symm

end

variable {Body : Type}

/-! ### What a scope sees of a run -/

/-- The requests of the scope, in their order. -/
def GuardWorld.ofScope (w : GuardWorld Body) (k : KeyScope) : List (GuardSession Body) :=
  w.sessions.filter fun s => s.scope == k

/-- The number of the request `i` among those of the scope. -/
def GuardWorld.rank (w : GuardWorld Body) (k : KeyScope) (i : Nat) : Nat :=
  ((w.sessions.take i).filter fun s => s.scope == k).length

/-- What the scope sees of an action: the arrival of one of its requests, a step of one of
them, or the answer of a handler of one of them. -/
def keyAction (k : KeyScope) (w : GuardWorld Body) :
    GuardAction Body → Option (GuardAction Body)
  | .arrive req =>
    match idempotencyGuard req with
    | .ok (some scope) => if scope = k then some (.arrive req) else none
    | _ => none
  | .step i env =>
    match w.sessions[i]? with
    | some s => if s.scope = k then some (.step (w.rank k i) env) else none
    | none => none
  | .answer i status body =>
    match w.sessions[i]? with
    | some ⟨scope, .executing _⟩ =>
      if scope = k then some (.answer (w.rank k i) status body) else none
    | _ => none

/-- What the scope sees of a run. -/
def history (k : KeyScope) (w : GuardWorld Body) :
    List (GuardAction Body) → List (GuardAction Body)
  | [] => []
  | a :: rest => (keyAction k w a).toList ++ history k (w.step a) rest

/-! ### The simulation -/

/-- The second world has the row of the scope and its requests, and no other requests. -/
structure Agree (k : KeyScope) (w v : GuardWorld Body) : Prop where
  row : v.keys.get? k = w.keys.get? k
  sessions : v.sessions = w.ofScope k

/-- A statement of the scope reads and writes nothing but the row of the scope. -/
theorem Phase.next_congr {k : KeyScope} {keys keys' : KeyTable Body}
    (h : keys'.get? k = keys.get? k) (now : Timestamp) (phase : Phase Body) :
    (phase.next k now keys').1 = (phase.next k now keys).1 ∧
      (phase.next k now keys').2.get? k = (phase.next k now keys).2.get? k := by
  have hinsert : keys'.insertKey k now = keys.insertKey k now := by
    rw [KeyTable.insertKey, KeyTable.insertKey, h]
  have hselect : keys'.selectKey k = keys.selectKey k := h
  -- An inserted row is one of the scope.
  have hput : ∀ r, keys.insertKey k now = some r → (keys'.put r).get? k = (keys.put r).get? k := by
    intro r hr
    obtain ⟨-, rfl, -⟩ := KeyTable.insertKey_eq_some hr
    rw [Table.get?_put_self, Table.get?_put_self]
  cases phase with
  | insert | reinsert | pollInsert =>
      simp only [next, hinsert]
      split
      · rename_i r hr
        exact ⟨rfl, hput r hr⟩
      · exact ⟨rfl, h⟩
  | select | pollSelect =>
      simp only [next, hselect]
      exact ⟨trivial, h⟩
  | delete =>
      refine ⟨rfl, ?_⟩
      show (keys'.erase k).get? k = (keys.erase k).get? k
      rw [Table.get?_erase_self, Table.get?_erase_self]
  | marking status body =>
      refine ⟨rfl, ?_⟩
      simp only [next]
      split
      · rw [KeyTable.markCompleted, KeyTable.markCompleted, KeyTable.get?_update,
          KeyTable.get?_update, h]
      · rw [KeyTable.markFailed, KeyTable.markFailed, KeyTable.get?_update,
          KeyTable.get?_update, h]
  | reselect | executing | sleeping | done => exact ⟨rfl, h⟩

section

variable {k : KeyScope} {w v : GuardWorld Body}

/-- A request of another scope moves. -/
theorem Agree.moveTo_other (h : Agree k w v) {i : Nat} {s : GuardSession Body}
    (hi : w.sessions[i]? = some s) (hs : s.scope ≠ k) (phase : Phase Body)
    {keys : KeyTable Body} (hkeys : keys.get? k = w.keys.get? k) :
    Agree k (w.moveTo i s phase keys) v where
  row := h.row.trans hkeys.symm
  sessions := by
    have hscope : (s.scope == k) = false := beq_false_of_ne hs
    rw [h.sessions]
    exact (filter_set_of_neg hi hscope hscope).symm

/-- A request of the scope moves. -/
theorem Agree.moveTo (h : Agree k w v) {i : Nat} {s : GuardSession Body}
    (hi : w.sessions[i]? = some s) (hs : s.scope = k) (phase : Phase Body)
    {keys keys' : KeyTable Body} (hkeys : keys'.get? k = keys.get? k) :
    Agree k (w.moveTo i s phase keys) (v.moveTo (w.rank k i) s phase keys') where
  row := hkeys
  sessions := by
    have hscope : (s.scope == k) = true := beq_iff_eq.mpr hs
    show v.sessions.set _ _ = _
    rw [h.sessions]
    exact (filter_set_of_pos hi hscope hscope).symm

/-- The request that the scope numbers. -/
theorem Agree.getElem? (h : Agree k w v) {i : Nat} {s : GuardSession Body}
    (hi : w.sessions[i]? = some s) (hs : s.scope = k) :
    v.sessions[w.rank k i]? = some s := by
  rw [h.sessions]
  exact getElem?_filter_of_getElem? hi (beq_iff_eq.mpr hs)

/-- An action that the scope does not see. -/
theorem Agree.step_unseen (h : Agree k w v) {a : GuardAction Body} (ha : keyAction k w a = none) :
    Agree k (w.step a) v := by
  cases a with
  | arrive req =>
      simp only [keyAction] at ha
      simp only [GuardWorld.step]
      split
      · rename_i scope hguard
        rw [hguard] at ha
        dsimp only at ha
        split at ha
        · cases ha
        · -- A request of another scope is filtered out.
          rename_i hscope
          refine ⟨h.row, ?_⟩
          rw [h.sessions]
          show _ = List.filter _ (w.sessions ++ [_])
          rw [List.filter_append, List.filter_cons_of_neg (by simpa using hscope),
            List.filter_nil, List.append_nil]
          rfl
      · exact h
  | step i env =>
      simp only [keyAction] at ha
      simp only [GuardWorld.step]
      split
      · rename_i s hi
        rw [hi] at ha
        dsimp only at ha
        split at ha
        · cases ha
        · rename_i hs
          -- The statement fails, or writes a row of its own scope.
          split
          · exact h.moveTo_other hi hs _ rfl
          · exact h.moveTo_other hi hs _ (Phase.next_get?_ne hs _ _ _)
      · exact h
  | answer i status body =>
      simp only [keyAction] at ha
      simp only [GuardWorld.step]
      split
      · rename_i scope retry hi
        rw [hi] at ha
        dsimp only at ha
        split at ha
        · cases ha
        · rename_i hs
          exact h.moveTo_other hi hs _ rfl
      · exact h

/-- An action that the scope sees is done on both sides. -/
theorem Agree.step_seen (h : Agree k w v) {a b : GuardAction Body}
    (ha : keyAction k w a = some b) : Agree k (w.step a) (v.step b) := by
  cases a with
  | arrive req =>
      simp only [keyAction] at ha
      split at ha
      · rename_i scope hguard
        split at ha
        · rename_i hscope
          cases ha
          subst hscope
          simp only [GuardWorld.step, hguard]
          refine ⟨h.row, ?_⟩
          show v.sessions ++ _ = List.filter _ (w.sessions ++ [_])
          rw [h.sessions, List.filter_append, List.filter_cons_of_pos (by simp),
            List.filter_nil]
          rfl
        · cases ha
      · cases ha
  | step i env =>
      simp only [keyAction] at ha
      split at ha
      · rename_i s hi
        split at ha
        · rename_i hs
          cases ha
          -- On both sides the same request, and the same failure or none.
          simp only [GuardWorld.step, hi, h.getElem? hi hs]
          split
          · exact h.moveTo hi hs _ h.row
          · obtain ⟨hphase, hkeys⟩ := s.phase.next_congr (hs ▸ h.row) env.now
            rw [hphase]
            exact h.moveTo hi hs _ (hs ▸ hkeys)
        · cases ha
      · cases ha
  | answer i status body =>
      simp only [keyAction] at ha
      split at ha
      · rename_i scope retry hi
        split at ha
        · rename_i hs
          cases ha
          simp only [GuardWorld.step, hi, h.getElem? hi hs]
          exact h.moveTo hi hs _ h.row
        · cases ha
      · cases ha

/-- A run, and the run of its history. -/
theorem Agree.run (h : Agree k w v) (actions : List (GuardAction Body)) :
    Agree k (w.run actions) (v.run (history k w actions)) := by
  induction actions generalizing w v with
  | nil => exact h
  | cons a rest ih =>
      rw [history, GuardWorld.run, GuardWorld.run_append]
      cases ha : keyAction k w a with
      | none => exact ih (h.step_unseen ha)
      | some b => exact ih (h.step_seen ha)

end

/-! ### Where a cached answer comes from -/

/-- The answer is one of the actions. -/
def AnsweredBy (actions : List (GuardAction Body)) (status : Nat) (body : Body) : Prop :=
  ∃ i, GuardAction.answer i status body ∈ actions

/-- A cached answer in the row is one of the actions. -/
def RowSourced (actions : List (GuardAction Body)) (row : Option (IdempotencyRecord Body)) :
    Prop :=
  ∀ r ∈ row, r.status = .completed →
    ∃ status body, r.responseStatus = some status ∧ r.responseBody = some body ∧
      AnsweredBy actions status body

/-- What the request records or replays is one of the actions. -/
def PhaseSourced (actions : List (GuardAction Body)) : Phase Body → Prop
  | .marking status body => AnsweredBy actions status body
  | .done (.replayed status body) => ∃ b, body = some b ∧ AnsweredBy actions status b
  | _ => True

/-- The answers of the scope `k` come from the actions. -/
structure Sourced (k : KeyScope) (actions : List (GuardAction Body)) (w : GuardWorld Body) :
    Prop where
  row : RowSourced actions (w.keys.get? k)
  sessions : ∀ s ∈ w.sessions, s.scope = k → PhaseSourced actions s.phase

section

variable {k : KeyScope} {keys : KeyTable Body} {actions : List (GuardAction Body)}

/-- More actions have no fewer answers. -/
theorem AnsweredBy.append {status : Nat} {body : Body} (h : AnsweredBy actions status body)
    (a : GuardAction Body) : AnsweredBy (actions ++ [a]) status body := by
  obtain ⟨i, hi⟩ := h
  exact ⟨i, List.mem_append_left _ hi⟩

/-- The source of a row stays one after more actions. -/
theorem RowSourced.append {row : Option (IdempotencyRecord Body)} (h : RowSourced actions row)
    (a : GuardAction Body) : RowSourced (actions ++ [a]) row := by
  intro r hr hc
  obtain ⟨status, body, hs, hb, hanswered⟩ := h r hr hc
  exact ⟨status, body, hs, hb, hanswered.append a⟩

/-- The source of a phase stays one after more actions. -/
theorem PhaseSourced.append {phase : Phase Body} (h : PhaseSourced actions phase)
    (a : GuardAction Body) : PhaseSourced (actions ++ [a]) phase := by
  cases phase with
  | marking status body => exact AnsweredBy.append h a
  | done outcome =>
      cases outcome with
      | replayed status body =>
          obtain ⟨b, hb, hanswered⟩ := h
          exact ⟨b, hb, hanswered.append a⟩
      | _ => trivial
  | _ => trivial

/-- The poll loop replays nothing. -/
theorem PhaseSourced.pollLoop (deadline now : Timestamp) :
    PhaseSourced actions (Vanguard.pollLoop deadline now) := by
  rw [Vanguard.pollLoop]
  split <;> trivial

/-- A lookup replays the answer of the row. -/
theorem RowSourced.cachedResponse {r : IdempotencyRecord Body}
    (h : RowSourced actions (some r)) (hc : r.status = .completed) :
    PhaseSourced actions (cachedResponse r) := by
  obtain ⟨status, body, hs, hb, hanswered⟩ := h r rfl hc
  rw [Vanguard.cachedResponse, hs, hb, Option.getD_some]
  exact ⟨body, rfl, hanswered⟩

/-- A lookup of a row with a source replays that source. -/
theorem RowSourced.onExisting {row : Option (IdempotencyRecord Body)}
    (h : RowSourced actions row) (now : Timestamp) :
    PhaseSourced actions (onExisting now row) := by
  cases row with
  | none => trivial
  | some r =>
      rw [Vanguard.onExisting]
      split
      · rename_i hc
        exact h.cachedResponse hc
      · trivial
      · exact .pollLoop _ _

/-- A poll of a row with a source replays that source. -/
theorem RowSourced.onPolled {row : Option (IdempotencyRecord Body)}
    (h : RowSourced actions row) (deadline now : Timestamp) :
    PhaseSourced actions (onPolled deadline now row) := by
  cases row with
  | none => trivial
  | some r =>
      rw [Vanguard.onPolled]
      split
      · rename_i hc
        exact h.cachedResponse hc
      · trivial
      · exact .pollLoop _ _

/-- A statement of the scope adds no answer of its own. -/
theorem PhaseSourced.next {phase : Phase Body} (h : PhaseSourced actions phase)
    (hrow : RowSourced actions (keys.get? k)) (now : Timestamp) :
    PhaseSourced actions (phase.next k now keys).1 ∧
      RowSourced actions ((phase.next k now keys).2.get? k) := by
  -- A row that has been inserted holds no answer.
  have hinserted : ∀ r, keys.insertKey k now = some r →
      RowSourced actions (some r) ∧ RowSourced actions ((keys.put r).get? k) := by
    intro r hr
    obtain ⟨-, rfl, hstatus⟩ := KeyTable.insertKey_eq_some hr
    rw [Table.get?_put_self, and_self]
    intro r' hr' hc
    cases hr'
    rw [hstatus] at hc
    cases hc
  cases phase with
  | insert | reinsert =>
      simp only [Phase.next]
      split
      · rename_i r hr
        exact ⟨trivial, (hinserted r hr).2⟩
      · exact ⟨trivial, hrow⟩
  | pollInsert deadline =>
      simp only [Phase.next]
      split
      · rename_i r hr
        exact ⟨(hinserted r hr).1.onPolled deadline now, (hinserted r hr).2⟩
      · exact ⟨trivial, hrow⟩
  | select => exact ⟨RowSourced.onExisting hrow now, hrow⟩
  | pollSelect deadline => exact ⟨RowSourced.onPolled hrow deadline now, hrow⟩
  | delete =>
      refine ⟨trivial, ?_⟩
      show RowSourced actions ((keys.erase k).get? k)
      rw [Table.get?_erase_self]
      intro r hr
      cases hr
  | marking status body =>
      refine ⟨trivial, ?_⟩
      simp only [Phase.next]
      split
      · -- The answer that is written into the row is the one being recorded.
        rw [KeyTable.markCompleted, KeyTable.get?_update]
        intro r hr _
        obtain ⟨r', -, rfl⟩ := Option.mem_map.mp hr
        exact ⟨status, body, rfl, rfl, h⟩
      · -- A failed row is not completed.
        rw [KeyTable.markFailed, KeyTable.get?_update]
        intro r hr hc
        obtain ⟨r', -, rfl⟩ := Option.mem_map.mp hr
        cases hc
  | sleeping deadline wake =>
      refine ⟨?_, hrow⟩
      simp only [Phase.next]
      split <;> trivial
  | executing | reselect => exact ⟨trivial, hrow⟩
  | done => exact ⟨h, hrow⟩

/-- A failed statement replays nothing new. -/
theorem PhaseSourced.fail {phase : Phase Body} (h : PhaseSourced actions phase) :
    PhaseSourced actions phase.fail := by
  cases phase with
  | done => exact h
  | _ => trivial

/-- One request moves, and the row with it. -/
theorem Sourced.moveTo {w : GuardWorld Body} (h : Sourced k actions w) {a : GuardAction Body}
    {i : Nat} {s : GuardSession Body} {phase : Phase Body}
    (hphase : s.scope = k → PhaseSourced (actions ++ [a]) phase)
    (hrow : RowSourced (actions ++ [a]) (keys.get? k)) :
    Sourced k (actions ++ [a]) (w.moveTo i s phase keys) where
  row := hrow
  sessions := by
    intro t ht hscope
    obtain ⟨j, hj⟩ := List.mem_iff_getElem?.mp ht
    rcases GuardWorld.moveTo_cases hj with ⟨-, rfl⟩ | ⟨-, hold⟩
    · exact hphase hscope
    · exact (h.sessions t (List.mem_of_getElem? hold) hscope).append a

/-- A step keeps every answer of the scope sourced in the actions. -/
theorem Sourced.step {w : GuardWorld Body} (h : Sourced k actions w) (a : GuardAction Body) :
    Sourced k (actions ++ [a]) (w.step a) := by
  have hrow := h.row.append a
  have hstep := w.stepped a
  generalize w.step a = w' at hstep ⊢
  cases hstep with
  | idle => exact ⟨hrow, fun s hs hscope => (h.sessions s hs hscope).append _⟩
  | arrive hguard =>
      refine ⟨hrow, fun s hs hscope => ?_⟩
      rcases List.mem_append.mp hs with hold | hnew
      · exact (h.sessions s hold hscope).append _
      · rw [List.mem_singleton.mp hnew]
        trivial
  | @fail i env s hi hfault =>
      exact h.moveTo (fun hscope =>
        ((h.sessions s (List.mem_of_getElem? hi) hscope).append _).fail) hrow
  | @next i env s hi hfault =>
      by_cases hscope : s.scope = k
      · subst hscope
        have hnext := ((h.sessions s (List.mem_of_getElem? hi) rfl).append _).next hrow env.now
        exact h.moveTo (fun _ => hnext.1) hnext.2
      · refine h.moveTo (fun hs => absurd hs hscope) ?_
        rw [Phase.next_get?_ne hscope]
        exact hrow
  | @answer i status body scope retry hi =>
      -- The answer is recorded, or ends a failed retry.
      refine h.moveTo (fun _ => ?_) hrow
      rw [onAnswer]
      split
      · exact ⟨i, List.mem_append_right _ (List.mem_singleton_self _)⟩
      · trivial

/-- Every answer that a run of a new key replays is one of its actions. -/
theorem Sourced.run (hk : keys.get? k = none) (actions : List (GuardAction Body)) :
    Sourced k actions ((GuardWorld.start keys).run actions) := by
  induction actions using List.reverseRecOn with
  | nil =>
      refine ⟨?_, fun s hs => nomatch hs⟩
      intro r hr
      rw [show ((GuardWorld.start keys).run []).keys.get? k = none from hk] at hr
      cases hr
  | append_singleton actions a ih =>
      rw [GuardWorld.run_append]
      exact ih.step a

end

/-- The scope `k` has the same history in two runs, and the same row at first. Then its
requests end in the same way in both, and its row is the same. If the key was new, each answer
that one of its requests replays is that of a handler of the scope. -/
theorem scope_isolated {k : KeyScope} {keys keys' : KeyTable Body}
    (hrow : keys'.get? k = keys.get? k) {actions actions' : List (GuardAction Body)}
    (h : history k (GuardWorld.start keys') actions' =
      history k (GuardWorld.start keys) actions) :
    let w := (GuardWorld.start keys).run actions
    let w' := (GuardWorld.start keys').run actions'
    w'.ofScope k = w.ofScope k ∧ w'.keys.get? k = w.keys.get? k ∧
      (keys.get? k = none → ∀ s ∈ w.ofScope k, ∀ status body,
        s.phase = .done (.replayed status body) →
        ∃ b, body = some b ∧ AnsweredBy (history k (GuardWorld.start keys) actions) status b) := by
  intro w w'
  -- Both runs are simulated by the run of the one history.
  have hw : Agree k w _ :=
    (show Agree k (GuardWorld.start keys) (GuardWorld.start keys) from ⟨rfl, rfl⟩).run actions
  have hw' : Agree k w' _ :=
    (show Agree k (GuardWorld.start keys') (GuardWorld.start keys) from
      ⟨hrow.symm, rfl⟩).run actions'
  rw [h] at hw'
  refine ⟨hw'.sessions.symm.trans hw.sessions, hw'.row.symm.trans hw.row, ?_⟩
  intro hk s hs status body hphase
  have hscope : s.scope = k := beq_iff_eq.mp (List.mem_filter.mp hs).2
  -- The replay is also in the run of the history, which has no other actions.
  rw [← hw.sessions] at hs
  have hsourced := (Sourced.run hk _).sessions s hs hscope
  rw [hphase] at hsourced
  exact hsourced

/-- The same request of the buyer. -/
def sampleOther : GuardedRequest :=
  { sampleGuarded with user := some ⟨sampleBuyer, .buyer⟩ }

/-- The requests of the supplier in `sampleReplays`, between those of the buyer. -/
def sampleMixed : List (GuardAction String) :=
  [.arrive sampleOther, guardStep 0, .arrive sampleGuarded, guardStep 1, .answer 0 500 "error",
    .arrive sampleGuarded, guardStep 0, guardStep 2, .arrive sampleOther, guardStep 2,
    guardStep 3, .answer 1 201 "created", guardStep 3, guardStep 1, .arrive sampleGuarded,
    guardStep 4, guardStep 4]

/-- The isolation of a scope in a run with requests of two. -/
theorem scope_isolated_of_mixed :
    history sampleScope (GuardWorld.start Table.empty) sampleMixed =
        history sampleScope (GuardWorld.start Table.empty) sampleReplays ∧
      ((GuardWorld.start Table.empty).run sampleMixed).ofScope sampleScope =
        ((GuardWorld.start Table.empty).run sampleReplays).ofScope sampleScope := by
  have h : history sampleScope (GuardWorld.start Table.empty) sampleMixed =
      history sampleScope (GuardWorld.start Table.empty) sampleReplays := by rfl
  exact ⟨h, (scope_isolated rfl h).1⟩

end Vanguard
