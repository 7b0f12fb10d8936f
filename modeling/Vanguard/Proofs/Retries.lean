import Vanguard.Proofs.CachedResponse

/-!
# `Vanguard.Proofs.Retries`: requests one after the other

Requests of one scope that do not overlap: each arrives when the one before has ended and its
write to the key store is done (`SerialRequest`). The wrapper of the `FAILED` branch records
no failure. After two failures the row stays `PROCESSING`, and every later request polls
until it times out. `key_never_burned_iff` says for which outcomes of the handlers this does
not happen.

`Lifecycle` is the invariant: the row of the key, the answers so far, and the phase of the
request under way.
-/

set_option autoImplicit false

namespace Vanguard

open ReadCommitted

variable {Body : Type}

/-! ### The law -/

/-- The request has ended, and its write to the key store is done. -/
def Phase.ended : Phase Body → Bool
  | done _ => true
  | _ => false

/-- One request of the scope `k` after the other, with no failure of the database. The handler
of the request `i`, if it is called, answers with the outcome `i`. -/
def SerialRequest (k : KeyScope) (outcomes : List (Nat × Body)) (w : GuardWorld Body) :
    GuardAction Body → Prop
  | .arrive req => idempotencyGuard req = .ok (some k) ∧
      ∀ s ∈ w.sessions, s.phase.ended = true
  | .step _ env => env.fault = false
  | .answer i status body => outcomes[i]? = some (status, body)

/-- The condition on a step reads only the world it starts from, so it can be
decided. -/
instance [DecidableEq Body] (k : KeyScope) (outcomes : List (Nat × Body)) (w : GuardWorld Body)
    (a : GuardAction Body) : Decidable (SerialRequest k outcomes w a) :=
  match a with
  | .arrive _ => inferInstanceAs (Decidable (_ ∧ _))
  | .step _ env => inferInstanceAs (Decidable (env.fault = false))
  | .answer i status body => inferInstanceAs (Decidable (outcomes[i]? = some (status, body)))

/-- How the requests have ended, in their order. -/
def GuardWorld.outcomes (w : GuardWorld Body) : List (Outcome Body) :=
  w.sessions.filterMap fun s =>
    match s.phase with
    | .done outcome => some outcome
    | _ => none

/-- A request for each outcome has arrived and ended. -/
def GuardWorld.Complete (w : GuardWorld Body) (outcomes : List (Nat × Body)) : Prop :=
  w.sessions.length = outcomes.length ∧ ∀ s ∈ w.sessions, s.phase.ended = true

/-- Each request executes its handler as long as no handler has answered with success, and
replays the first success from then on. -/
def NeverBurned : Option (Nat × Body) → List (Outcome Body) → Prop
  | _, [] => True
  | none, .answered status body :: rest =>
    NeverBurned (if success status then some (status, body) else none) rest
  | none, _ :: _ => False
  | some (status, body), outcome :: rest =>
    outcome = .replayed status (some body) ∧ NeverBurned (some (status, body)) rest

/-- At most two requests, or a success among the first two. -/
def Rescued (outcomes : List (Nat × Body)) : Prop :=
  outcomes.length ≤ 2 ∨ ∃ o ∈ outcomes.take 2, success o.1 = true

/-- Replays of the first answer burn no key. -/
theorem neverBurned_replays (status : Nat) (body : Body) {replays : List (Outcome Body)}
    (h : ∀ o ∈ replays, o = .replayed status (some body)) :
    NeverBurned (some (status, body)) replays := by
  induction replays with
  | nil => trivial
  | cons o rest ih =>
      rw [NeverBurned]
      exact ⟨h o List.mem_cons_self, ih fun o' ho' => h o' (List.mem_cons_of_mem _ ho')⟩

/-- Failures leave nothing in the cache. -/
theorem neverBurned_failures {failures rest : List (Outcome Body)}
    (h : ∀ o ∈ failures, ∃ st b, o = .answered st b ∧ success st = false) :
    NeverBurned none (failures ++ rest) ↔ NeverBurned none rest := by
  induction failures with
  | nil => rfl
  | cons o failures ih =>
      obtain ⟨st, b, rfl, hfailure⟩ := h o List.mem_cons_self
      -- The law goes on as if this request had not been there.
      rw [List.cons_append, NeverBurned, hfailure, if_neg Bool.false_ne_true]
      exact ih fun o' ho' => h o' (List.mem_cons_of_mem _ ho')

/-- Two failures are not rescued by what comes after them. -/
theorem not_rescued {outcomes : List (Nat × Body)} {o o' : Nat × Body}
    (hlength : 2 < outcomes.length) (hfirst : outcomes[0]? = some o)
    (hfailure : success o.1 = false) (hsecond : outcomes[1]? = some o')
    (hfailure' : success o'.1 = false) : ¬ Rescued outcomes := by
  intro h
  rcases h with h | ⟨x, hx, hsuccess⟩
  · omega
  · obtain ⟨n, hn⟩ := List.mem_iff_getElem?.mp hx
    rw [List.getElem?_take] at hn
    split at hn
    · rename_i hlt
      obtain rfl | rfl : n = 0 ∨ n = 1 := by omega
      · rw [hfirst] at hn
        cases hn
        rw [hfailure] at hsuccess
        cases hsuccess
      · rw [hsecond] at hn
        cases hn
        rw [hfailure'] at hsuccess
        cases hsuccess
    · cases hn

/-! ### The lifecycle of the key -/

/-- No phase, nothing to show. -/
theorem forall_mem_none {P : Phase Body → Prop} : ∀ p ∈ (none : Option (Phase Body)), P p := by
  intro p hp
  cases hp

/-- The row of the key, the outcomes of the requests that have ended, and the phase of the
request under way. -/
inductive Lifecycle (outcomes : List (Nat × Body)) :
    Option (IdempotencyRecord Body) → List (Outcome Body) → Option (Phase Body) → Prop where
  /-- The key is new. -/
  | fresh {current : Option (Phase Body)} (hcurrent : ∀ p ∈ current, p = .insert) :
      Lifecycle outcomes none [] current
  /-- The first handler runs or records its answer. -/
  | first {r : IdempotencyRecord Body} {p : Phase Body} (hstatus : r.status = .processing)
      (hp : p = .executing false ∨ ∃ o, outcomes[0]? = some o ∧ p = .marking o.1 o.2) :
      Lifecycle outcomes (some r) [] (some p)
  /-- The first handler has failed. -/
  | failed {r : IdempotencyRecord Body} {o : Nat × Body} {current : Option (Phase Body)}
      (hstatus : r.status = .failed) (hfirst : outcomes[0]? = some o)
      (hfailure : success o.1 = false)
      (hcurrent : ∀ p ∈ current, p = .insert ∨ p = .select ∨ p = .delete) :
      Lifecycle outcomes (some r) [.answered o.1 o.2] current
  /-- The retry has deleted the row. -/
  | deleted {o : Nat × Body} (hfirst : outcomes[0]? = some o) (hfailure : success o.1 = false) :
      Lifecycle outcomes none [.answered o.1 o.2] (some .reinsert)
  /-- The handler of the retry runs, or its success is being recorded. -/
  | second {r : IdempotencyRecord Body} {o : Nat × Body} {p : Phase Body}
      (hstatus : r.status = .processing) (hfirst : outcomes[0]? = some o)
      (hfailure : success o.1 = false)
      (hp : p = .executing true ∨
        ∃ o', outcomes[1]? = some o' ∧ success o'.1 = true ∧ p = .marking o'.1 o'.2) :
      Lifecycle outcomes (some r) [.answered o.1 o.2] (some p)
  /-- A handler has succeeded, and its answer is in the cache. -/
  | cached {r : IdempotencyRecord Body} {failures replays : List (Outcome Body)}
      {o : Nat × Body} {current : Option (Phase Body)} (hstatus : r.status = .completed)
      (hcache : cachedResponse r = .done (.replayed o.1 (some o.2)))
      (hfailures : ∀ x ∈ failures, ∃ st b, x = .answered st b ∧ success st = false)
      (hlength : failures.length < 2) (ho : outcomes[failures.length]? = some o)
      (hsuccess : success o.1 = true)
      (hreplays : ∀ x ∈ replays, x = .replayed o.1 (some o.2))
      (hcurrent : ∀ p ∈ current, p = .insert ∨ p = .select) :
      Lifecycle outcomes (some r) (failures ++ .answered o.1 o.2 :: replays) current
  /-- The retry has failed too. No request leaves this state. -/
  | burned {r : IdempotencyRecord Body} {o o' : Nat × Body} {refusals : List (Outcome Body)}
      {current : Option (Phase Body)} (hstatus : r.status = .processing)
      (hfirst : outcomes[0]? = some o) (hfailure : success o.1 = false)
      (hsecond : outcomes[1]? = some o') (hfailure' : success o'.1 = false)
      (hrefusals : ∀ x ∈ refusals, ∃ answer, x = .refused answer)
      (hcurrent : ∀ p ∈ current, p.Waits) :
      Lifecycle outcomes (some r) (.answered o.1 o.2 :: .answered o'.1 o'.2 :: refusals) current

/-- The request under way has moved to a phase: it may have ended. -/
def served (outcomes : List (Outcome Body)) : Phase Body → List (Outcome Body)
  | .done outcome => outcomes ++ [outcome]
  | _ => outcomes

/-- The phase of the request under way, unless it has ended. -/
def underway : Phase Body → Option (Phase Body)
  | .done _ => none
  | phase => some phase

section

variable {outcomes : List (Nat × Body)} {row : Option (IdempotencyRecord Body)}
  {ended : List (Outcome Body)} {keys : KeyTable Body} {k : KeyScope} {phase : Phase Body}

/-- A request that waits and ends has timed out. -/
theorem Lifecycle.burned_moves {r : IdempotencyRecord Body} {o o' : Nat × Body}
    {refusals : List (Outcome Body)} (hstatus : r.status = .processing)
    (hfirst : outcomes[0]? = some o) (hfailure : success o.1 = false)
    (hsecond : outcomes[1]? = some o') (hfailure' : success o'.1 = false)
    (hrefusals : ∀ x ∈ refusals, ∃ answer, x = .refused answer) (hphase : phase.Waits) :
    Lifecycle outcomes (some r)
      (served (.answered o.1 o.2 :: .answered o'.1 o'.2 :: refusals) phase) (underway phase) := by
  have hwaits : ∀ p ∈ some phase, Phase.Waits p := by
    intro p hp
    cases hp
    exact hphase
  cases phase with
  | done outcome =>
      show Lifecycle outcomes _ (.answered o.1 o.2 :: .answered o'.1 o'.2 :: (refusals ++ _)) none
      refine .burned hstatus hfirst hfailure hsecond hfailure' ?_ forall_mem_none
      intro x hx
      rcases List.mem_append.mp hx with hold | hnew
      · exact hrefusals x hold
      · rw [List.mem_singleton.mp hnew]
        cases outcome with
        | refused answer => exact ⟨answer, rfl⟩
        | _ => exact absurd hphase id
  | _ => exact .burned hstatus hfirst hfailure hsecond hfailure' hrefusals hwaits

/-- The request under way takes its next step. -/
theorem Lifecycle.next (hrow : keys.get? k = row) (h : Lifecycle outcomes row ended (some phase))
    (hopen : phase.ended = false) (now : Timestamp) :
    Lifecycle outcomes ((phase.next k now keys).2.get? k) (served ended (phase.next k now keys).1)
      (underway (phase.next k now keys).1) := by
  cases h with
  | fresh hcurrent =>
      -- The `INSERT` of a new key succeeds, and the handler is called.
      obtain rfl : phase = .insert := hcurrent phase rfl
      obtain ⟨r, hr⟩ := Option.isSome_iff_exists.mp (KeyTable.insertKey_of_none now hrow)
      obtain ⟨-, hscope, hstatus⟩ := KeyTable.insertKey_eq_some hr
      simp only [Phase.next, hr]
      rw [← hscope, Table.get?_put_self]
      exact .first hstatus (Or.inl rfl)
  | first hstatus hp =>
      rcases hp with rfl | ⟨o, ho, rfl⟩
      · simp only [Phase.next, hrow]
        exact .first hstatus (Or.inl rfl)
      · -- The wrapper of a new key records a success and a failure.
        cases hsuccess : success o.1 with
        | true =>
            simp only [Phase.next, hsuccess, if_true]
            rw [KeyTable.get?_markCompleted hrow]
            show Lifecycle outcomes _ ([] ++ .answered o.1 o.2 :: []) none
            exact .cached rfl rfl (List.forall_mem_nil _) Nat.zero_lt_two ho hsuccess
              (List.forall_mem_nil _) forall_mem_none
        | false =>
            simp only [Phase.next, hsuccess, Bool.false_eq_true, if_false]
            rw [KeyTable.get?_markFailed hrow]
            exact .failed rfl ho hsuccess forall_mem_none
  | @failed r o _ hstatus hfirst hfailure hcurrent =>
      -- The retry: the `INSERT` conflicts, the `SELECT` finds `FAILED`, the row is deleted.
      rcases hcurrent phase rfl with rfl | rfl | rfl
      · simp only [Phase.next, KeyTable.insertKey_of_some hrow now, hrow]
        exact .failed hstatus hfirst hfailure fun p hp => by cases hp; exact Or.inr (Or.inl rfl)
      · have hselect : keys.selectKey k = some r := hrow
        simp only [Phase.next, hselect, onExisting, hstatus, hrow]
        exact .failed hstatus hfirst hfailure fun p hp => by cases hp; exact Or.inr (Or.inr rfl)
      · simp only [Phase.next, KeyTable.deleteKey]
        rw [Table.get?_erase_self]
        exact .deleted hfirst hfailure
  | deleted hfirst hfailure =>
      obtain ⟨r, hr⟩ := Option.isSome_iff_exists.mp (KeyTable.insertKey_of_none now hrow)
      obtain ⟨-, hscope, hstatus⟩ := KeyTable.insertKey_eq_some hr
      simp only [Phase.next, hr]
      rw [← hscope, Table.get?_put_self]
      exact .second hstatus hfirst hfailure (Or.inl rfl)
  | @second r o _ hstatus hfirst hfailure hp =>
      rcases hp with rfl | ⟨o', ho', hsuccess, rfl⟩
      · simp only [Phase.next, hrow]
        exact .second hstatus hfirst hfailure (Or.inl rfl)
      · simp only [Phase.next, hsuccess, if_true]
        rw [KeyTable.get?_markCompleted hrow]
        show Lifecycle outcomes _ ([.answered o.1 o.2] ++ .answered o'.1 o'.2 :: []) none
        refine .cached rfl rfl ?_ Nat.one_lt_two ho' hsuccess (List.forall_mem_nil _)
          forall_mem_none
        intro x hx
        exact ⟨o.1, o.2, List.mem_singleton.mp hx, hfailure⟩
  | @cached r failures replays o _ hstatus hcache hfailures hlength ho hsuccess hreplays hcurrent =>
      -- A later request finds the cached answer with its `SELECT`, and ends.
      rcases hcurrent phase rfl with rfl | rfl
      · simp only [Phase.next, KeyTable.insertKey_of_some hrow now, hrow]
        exact .cached hstatus hcache hfailures hlength ho hsuccess hreplays
          fun p hp => by cases hp; exact Or.inr rfl
      · have hselect : keys.selectKey k = some r := hrow
        simp only [Phase.next, hselect, onExisting, hstatus, hcache, hrow]
        rw [served, underway, List.append_assoc, List.cons_append]
        refine .cached hstatus hcache hfailures hlength ho hsuccess ?_ forall_mem_none
        intro x hx
        rcases List.mem_append.mp hx with hold | hnew
        · exact hreplays x hold
        · exact List.mem_singleton.mp hnew
  | burned hstatus hfirst hfailure hsecond hfailure' hrefusals hcurrent =>
      -- The row stays `PROCESSING`, so the request waits or times out.
      obtain ⟨hkeys, hnext⟩ := (hcurrent phase rfl).next hrow
        (by rw [hstatus]; exact KeyStatus.noConfusion) now
      rw [hkeys, hrow]
      refine .burned_moves hstatus hfirst hfailure hsecond hfailure' hrefusals
        (hnext.resolve_right fun hc => ?_)
      rw [hstatus] at hc
      cases hc.1

/-- The handler of the request under way answers. -/
theorem Lifecycle.answer {retry : Bool} (h : Lifecycle outcomes row ended (some (.executing retry)))
    {status : Nat} {body : Body} (ho : outcomes[ended.length]? = some (status, body)) :
    Lifecycle outcomes row (served ended (onAnswer retry status body))
      (underway (onAnswer retry status body)) := by
  cases h with
  -- In these states no handler runs.
  | fresh hcurrent => cases hcurrent _ rfl
  | failed hstatus hfirst hfailure hcurrent =>
      rcases hcurrent _ rfl with hp | hp | hp <;> cases hp
  | cached hstatus hcache hfailures hlength ho hsuccess hreplays hcurrent =>
      rcases hcurrent _ rfl with hp | hp <;> cases hp
  | burned hstatus hfirst hfailure hsecond hfailure' hrefusals hcurrent =>
      exact absurd (hcurrent _ rfl) id
  | first hstatus hp =>
      rcases hp with hp | ⟨o, -, hp⟩
      · cases hp
        rw [onAnswer, Bool.not_false, Bool.or_true, if_pos rfl]
        exact .first hstatus (Or.inr ⟨(status, body), ho, rfl⟩)
      · cases hp
  | @second r o _ hstatus hfirst hfailure hp =>
      rcases hp with hp | ⟨o', -, -, hp⟩
      · cases hp
        rw [onAnswer, Bool.not_true, Bool.or_false]
        cases hsuccess : success status with
        | true =>
            rw [if_pos rfl]
            exact .second hstatus hfirst hfailure (Or.inr ⟨(status, body), ho, hsuccess, rfl⟩)
        | false =>
            -- The wrapper of the retry has no branch for a failure.
            rw [if_neg Bool.false_ne_true]
            show Lifecycle outcomes _
              (.answered o.1 o.2 :: .answered (status, body).1 (status, body).2 :: []) none
            exact .burned hstatus hfirst hfailure ho hsuccess
              (List.forall_mem_nil _) forall_mem_none
      · cases hp

/-- A request arrives when no request is under way. -/
theorem Lifecycle.arrive (h : Lifecycle outcomes row ended none) :
    Lifecycle outcomes row ended (some .insert) := by
  cases h with
  | fresh hcurrent => exact .fresh fun p hp => by cases hp; rfl
  | failed hstatus hfirst hfailure hcurrent =>
      exact .failed hstatus hfirst hfailure fun p hp => by cases hp; exact Or.inl rfl
  | cached hstatus hcache hfailures hlength ho hsuccess hreplays hcurrent =>
      exact .cached hstatus hcache hfailures hlength ho hsuccess hreplays
        fun p hp => by cases hp; exact Or.inl rfl
  | burned hstatus hfirst hfailure hsecond hfailure' hrefusals hcurrent =>
      exact .burned hstatus hfirst hfailure hsecond hfailure' hrefusals
        fun p hp => by cases hp; trivial

/-- When no request is under way, the law holds exactly when the outcomes are rescued. -/
theorem Lifecycle.neverBurned_iff (h : Lifecycle outcomes row ended none)
    (hlength : ended.length = outcomes.length) : NeverBurned none ended ↔ Rescued outcomes := by
  cases h with
  -- Fewer than two requests have ended.
  | fresh hcurrent =>
      constructor
      · intro _
        left
        rw [← hlength]
        exact Nat.zero_le 2
      · intro _
        trivial
  | @failed r o _ hstatus hfirst hfailure hcurrent =>
      constructor
      · intro _
        left
        rw [← hlength]
        exact Nat.le_succ 1
      · intro _
        rw [NeverBurned, hfailure, if_neg Bool.false_ne_true]
        trivial
  | @cached r failures replays o _ hstatus hcache hfailures hshort ho hsuccess hreplays hcurrent =>
      constructor
      · intro _
        right
        refine ⟨o, ?_, hsuccess⟩
        rw [List.mem_iff_getElem?]
        exact ⟨failures.length, by rw [List.getElem?_take_of_lt hshort, ho]⟩
      · intro _
        rw [neverBurned_failures hfailures, NeverBurned, if_pos hsuccess]
        exact neverBurned_replays o.1 o.2 hreplays
  | @burned r o o' refusals _ hstatus hfirst hfailure hsecond hfailure' hrefusals hcurrent =>
      rw [NeverBurned, hfailure, if_neg Bool.false_ne_true, NeverBurned, hfailure',
        if_neg Bool.false_ne_true]
      cases refusals with
      | nil =>
          constructor
          · intro _
            left
            rw [← hlength]
            exact le_refl 2
          · intro _
            trivial
      | cons x refusals =>
          -- The third request was refused, and nothing was in the cache.
          obtain ⟨answer, rfl⟩ := hrefusals x List.mem_cons_self
          constructor
          · intro hlaw
            simp only [NeverBurned] at hlaw
          · intro hrescued
            refine absurd hrescued (not_rescued ?_ hfirst hfailure hsecond hfailure')
            rw [← hlength]
            simp only [List.length_cons]
            omega

end

/-! ### Runs -/

/-- The requests of a run: those that have ended, and the one under way. -/
def serialSessions (k : KeyScope) (ended : List (Outcome Body)) (current : Option (Phase Body)) :
    List (GuardSession Body) :=
  ended.map (fun o => ⟨k, .done o⟩) ++ current.toList.map fun p => ⟨k, p⟩

/-- The requests and the row of the key are in some state of the lifecycle. -/
def SerialWorld (k : KeyScope) (outcomes : List (Nat × Body)) (w : GuardWorld Body) : Prop :=
  ∃ ended current, w.sessions = serialSessions k ended current ∧
    (∀ p ∈ current, p.ended = false) ∧ Lifecycle outcomes (w.keys.get? k) ended current

/-- A session of a serial run has ended, or is the current one. -/
theorem serialSessions_cases {k : KeyScope} {ended : List (Outcome Body)}
    {current : Option (Phase Body)} {i : Nat} {s : GuardSession Body}
    (h : (serialSessions k ended current)[i]? = some s) :
    (∃ o, s = ⟨k, .done o⟩) ∨ i = ended.length ∧ ∃ p, current = some p ∧ s = ⟨k, p⟩ := by
  rw [serialSessions, List.getElem?_append, List.length_map] at h
  split at h
  · obtain ⟨o, -, rfl⟩ := List.mem_map.mp (List.mem_of_getElem? h)
    exact Or.inl ⟨o, rfl⟩
  · right
    rename_i hlt
    cases current with
    | none => cases h
    | some p =>
        obtain ⟨hlast, hs⟩ := List.getElem?_eq_some_iff.mp h
        simp only [Option.toList_some, List.map_cons, List.map_nil, List.length_cons,
          List.length_nil] at hlast
        refine ⟨by omega, p, rfl, ?_⟩
        rw [← hs]
        exact List.getElem_singleton _

/-- The request under way moves. -/
theorem serialSessions_set (k : KeyScope) (ended : List (Outcome Body)) (p phase : Phase Body) :
    (serialSessions k ended (some p)).set ended.length ⟨k, phase⟩ =
      serialSessions k (served ended phase) (underway phase) := by
  have hset : (serialSessions k ended (some p)).set ended.length ⟨k, phase⟩ =
      ended.map (fun o => ⟨k, .done o⟩) ++ [⟨k, phase⟩] := by
    rw [serialSessions, List.set_append_right _ _ (List.length_map _).le, List.length_map,
      Nat.sub_self]
    rfl
  rw [hset]
  cases phase with
  | done o =>
      show _ = (ended ++ [o]).map _ ++ []
      rw [List.map_append, List.append_nil]
      rfl
  | _ => rfl

/-- A phase under way has not ended. -/
theorem ended_of_underway {phase p : Phase Body} (h : p ∈ underway phase) : p.ended = false := by
  cases phase with
  | done => cases h
  | _ =>
      cases h
      rfl

/-- One action keeps the state of the lifecycle. -/
theorem SerialWorld.step {k : KeyScope} {outcomes : List (Nat × Body)} {w : GuardWorld Body}
    (h : SerialWorld k outcomes w) {a : GuardAction Body} (ha : SerialRequest k outcomes w a) :
    SerialWorld k outcomes (w.step a) := by
  have hw := h
  obtain ⟨ended, current, hsessions, hopen, hlife⟩ := h
  have hstep := w.stepped a
  generalize w.step a = w' at hstep ⊢
  cases hstep with
  | idle => exact hw
  | @arrive req scope hguard =>
      obtain ⟨hscope, hended⟩ := ha
      obtain rfl : scope = k := by
        rw [hguard] at hscope
        cases hscope
        rfl
      -- No request is under way.
      cases current with
      | some p =>
          have := hended ⟨scope, p⟩ (by rw [hsessions]; simp [serialSessions])
          rw [hopen p rfl] at this
          cases this
      | none =>
          refine ⟨ended, some .insert, ?_, fun p hp => by cases hp; rfl, hlife.arrive⟩
          show w.sessions ++ _ = _
          rw [hsessions, serialSessions, serialSessions, List.append_assoc]
          rfl
  | fail hi hfault =>
      rw [show _ = false from ha] at hfault
      cases hfault
  | @next i env s hi hfault =>
      rw [hsessions] at hi
      rcases serialSessions_cases hi with ⟨o, rfl⟩ | ⟨rfl, p, rfl, rfl⟩
      · -- A request that has ended does not move.
        refine ⟨ended, current, ?_, hopen, hlife⟩
        show w.sessions.set i ⟨k, .done o⟩ = _
        obtain ⟨hlt, hget⟩ := List.getElem?_eq_some_iff.mp hi
        rw [hsessions, ← hget]
        exact List.set_getElem_self hlt
      · refine ⟨_, _, ?_, fun q hq => ended_of_underway hq,
          hlife.next rfl (hopen p rfl) env.now⟩
        show w.sessions.set _ _ = _
        rw [hsessions]
        exact serialSessions_set k ended p _
  | @answer i status body scope retry hi =>
      rw [hsessions] at hi
      rcases serialSessions_cases hi with ⟨o, ho⟩ | ⟨rfl, p, rfl, hp⟩
      · cases ho
      · cases hp
        refine ⟨_, _, ?_, fun q hq => ended_of_underway hq, hlife.answer ha⟩
        show w.sessions.set _ _ = _
        rw [hsessions]
        exact serialSessions_set k ended _ _

/-- For requests of one scope that do not overlap, and a new key: each request executes its
handler as long as none has succeeded, and replays the first success from then on, exactly
when there are at most two requests or one of the first two handlers succeeds. -/
theorem key_never_burned_iff {k : KeyScope} {keys : KeyTable Body} (hk : keys.get? k = none)
    {outcomes : List (Nat × Body)} {actions : List (GuardAction Body)}
    (h : (GuardWorld.start keys).Allows (SerialRequest k outcomes) actions)
    (hcomplete : ((GuardWorld.start keys).run actions).Complete outcomes) :
    NeverBurned none ((GuardWorld.start keys).run actions).outcomes ↔ Rescued outcomes := by
  have hstart : SerialWorld k outcomes (GuardWorld.start keys) := by
    have hlife : Lifecycle outcomes (keys.get? k) [] none := by
      rw [hk]
      exact .fresh forall_mem_none
    exact ⟨[], none, rfl, forall_mem_none, hlife⟩
  obtain ⟨ended, current, hsessions, hopen, hlife⟩ :=
    GuardWorld.run_invariant (fun _ _ ha h => h.step ha) hstart h
  generalize (GuardWorld.start keys).run actions = w at hcomplete hsessions hlife ⊢
  obtain ⟨hlength, hended⟩ := hcomplete
  cases current with
  | some p =>
      -- All requests have ended.
      have := hended ⟨k, p⟩ (by rw [hsessions]; simp [serialSessions])
      rw [hopen p rfl] at this
      cases this
  | none =>
      have houtcomes : w.outcomes = ended := by
        rw [GuardWorld.outcomes, hsessions, serialSessions, Option.toList_none, List.map_nil,
          List.append_nil, List.filterMap_map]
        exact List.filterMap_some
      rw [houtcomes]
      refine hlife.neverBurned_iff ?_
      rw [← hlength, hsessions, serialSessions, Option.toList_none, List.map_nil,
        List.append_nil, List.length_map]

/-- Whether all requests have been answered can be decided. -/
instance (w : GuardWorld Body) (outcomes : List (Nat × Body)) :
    Decidable (w.Complete outcomes) :=
  inferInstanceAs (Decidable (_ ∧ _))

/-- A failure, a retry that succeeds, and a replay. -/
theorem never_burned_of_retry :
    (GuardWorld.start Table.empty).Allows
        (SerialRequest sampleScope [(500, "error"), (201, "created"), (201, "again")])
        sampleRetry ∧
      NeverBurned none ((GuardWorld.start Table.empty).run sampleRetry).outcomes := by
  have h : (GuardWorld.start Table.empty).Allows
      (SerialRequest sampleScope [(500, "error"), (201, "created"), (201, "again")])
      sampleRetry := by decide
  refine ⟨h, (key_never_burned_iff rfl h (by decide)).mpr (Or.inr ⟨(201, "created"), ?_, rfl⟩)⟩
  exact List.mem_cons_of_mem _ List.mem_cons_self

/-- A step of the request `i` at a time. -/
def guardStepAt (i : Nat) (now : Timestamp) : GuardAction String :=
  .step i { sampleEnv with now := now }

/-- Two failures, and a third request that polls until its deadline. -/
def sampleBurned : List (GuardAction String) :=
  sampleFailure ++
    [.arrive sampleGuarded, guardStep 1, guardStep 1, guardStep 1, guardStep 1,
      .answer 1 500 "error", .arrive sampleGuarded, guardStepAt 2 0, guardStepAt 2 0,
      guardStepAt 2 30000, guardStepAt 2 30000, guardStepAt 2 30000]

/-- The third request is refused, and no request has succeeded. -/
theorem key_burned_after_two_failures :
    (GuardWorld.start Table.empty).Allows
        (SerialRequest sampleScope [(500, "error"), (500, "error"), (201, "created")])
        sampleBurned ∧
      ((GuardWorld.start Table.empty).run sampleBurned).Complete
        [(500, "error"), (500, "error"), (201, "created")] ∧
      ¬ NeverBurned none ((GuardWorld.start Table.empty).run sampleBurned).outcomes := by
  refine ⟨by decide, by decide, ?_⟩
  have h : ((GuardWorld.start Table.empty).run sampleBurned).outcomes =
      [.answered 500 "error", .answered 500 "error", .refused ⟨409,
        some "CONCURRENT_REQUEST_TIMEOUT",
        "A request with this Idempotency-Key is still being processed. " ++
          "Retry after 30 seconds or use a new key."⟩] := by decide
  rw [h]
  simp [NeverBurned, success]

end Vanguard
