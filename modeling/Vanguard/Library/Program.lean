import Mathlib.Logic.Basic

/-!
# `Vanguard.Library.Program`: programs that await calls

`Prog C R α` is a program that makes calls `c : C`, awaits an answer of type `R c` for
each, and ends with a value of type `α`. A call whose answer can be a failure has an
answer type `Except Err (Res c)`; `Await C Res Err` is the monad of such programs, in
which a failed call throws. `Await.tryFinally` is the `try … catch … finally` statement.

`Prog.wp Φ p σ Q` is the weakest precondition of a program over a state `σ`: `Φ` says for
one call which states and answers can come back. `Await.wp` is the same for programs that
throw. The equations `Await.wp_bind`, `Await.wp_throw` and `Await.wp_tryFinally` compute it
statement by statement.
-/

set_option autoImplicit false

namespace ReadCommitted

/-- A program that makes calls and awaits their answers. -/
inductive Prog (C : Type) (R : C → Type) (α : Type) : Type where
  | ret (a : α)
  | call (c : C) (k : R c → Prog C R α)

namespace Prog

variable {C : Type} {R : C → Type} {α β : Type}

/-- Sequencing: the second program goes where the first one returns. -/
protected def bind : Prog C R α → (α → Prog C R β) → Prog C R β
  | ret a, f => f a
  | call c k, f => call c fun r => (k r).bind f

/-- Programs form a monad, so they can be written with `do`. -/
instance : Monad (Prog C R) where
  pure := ret
  bind := Prog.bind

/-- A program that has returned. -/
def finished : Prog C R α → Bool
  | ret _ => true
  | call _ _ => false

/-- The error with which a program has ended, if any. -/
def ended {Err : Type} : Prog C R (Except Err α) → Option (Option Err)
  | ret (.ok _) => some none
  | ret (.error e) => some (some e)
  | call _ _ => none

/-- A program that has ended is a return, and its error is the one it ended with. -/
theorem ret_of_ended {Err : Type} {p : Prog C R (Except Err α)} {o : Option Err}
    (h : p.ended = some o) : ∃ r, p = ret r ∧ ∀ e, o = some e → r = .error e := by
  cases p with
  | call c k => cases h
  | ret r =>
      refine ⟨r, rfl, fun e he => ?_⟩
      subst he
      cases r with
      | ok a => cases h
      | error e' =>
          cases h
          rfl

/-- A program over some of the calls, as a program over all of them. -/
def lift {C' : Type} {R' : C' → Type} (emb : C → C') (back : ∀ c, R' (emb c) → R c) :
    Prog C R α → Prog C' R' α
  | ret a => ret a
  | call c k => call (emb c) fun r => (k (back c r)).lift emb back

/-- The program may still make the call `c`, for some answers to the calls before it. -/
inductive MayCall (c : C) : Prog C R α → Prop where
  | here (k : R c → Prog C R α) : MayCall c (call c k)
  | later {c' : C} {k : R c' → Prog C R α} (r : R c') (h : MayCall c (k r)) :
      MayCall c (call c' k)

/-- Every call of the program satisfies `P`, whatever the answers are. -/
def Only (P : C → Prop) : Prog C R α → Prop
  | ret _ => True
  | call c k => P c ∧ ∀ r, (k r).Only P

/-- A sequence keeps to the calls both of its parts keep to. -/
theorem only_bind {P : C → Prop} {p : Prog C R α} {f : α → Prog C R β} (hp : p.Only P)
    (hf : ∀ a, (f a).Only P) : (p >>= f).Only P := by
  induction p with
  | ret a => exact hf a
  | call c k ih => exact ⟨hp.1, fun r => ih r (hp.2 r)⟩

/-- The weakest precondition: `Φ c σ K` says that every answer to the call `c` in the state
`σ` leads to a state and an answer that satisfy `K`. -/
def wp {σ : Type} (Φ : (c : C) → σ → (σ → R c → Prop) → Prop) :
    Prog C R α → σ → (α → σ → Prop) → Prop
  | ret a, s, Q => Q a s
  | call c k, s, Q => Φ c s fun s' r => (k r).wp Φ s' Q

section
variable {σ : Type} {Φ : (c : C) → σ → (σ → R c → Prop) → Prop}

/-- A return meets what holds of its value and of the state as it is. -/
@[simp] theorem wp_ret (a : α) (s : σ) (Q : α → σ → Prop) :
    (ret a : Prog C R α).wp Φ s Q ↔ Q a s := Iff.rfl

/-- A call meets what the rest of the program meets after every answer it may get. -/
@[simp] theorem wp_call (c : C) (k : R c → Prog C R α) (s : σ) (Q : α → σ → Prop) :
    (call c k).wp Φ s Q ↔ Φ c s fun s' r => (k r).wp Φ s' Q := Iff.rfl

/-- The precondition of a sequence is taken part by part. -/
theorem wp_bind (p : Prog C R α) (f : α → Prog C R β) (s : σ) (Q : β → σ → Prop) :
    (p >>= f).wp Φ s Q = p.wp Φ s fun a s' => (f a).wp Φ s' Q := by
  -- By induction on the calls of `p`, each of which leads to another state.
  induction p generalizing s with
  | ret a => rfl
  | call c k ih =>
      show Φ c s _ = Φ c s _
      congr 1
      funext s' r
      exact ih r s'

/-- The weakest precondition of a lifted program, by what its calls do among all of them. -/
theorem wp_lift {C' : Type} {R' : C' → Type} {Ψ : (c : C') → σ → (σ → R' c → Prop) → Prop}
    (emb : C → C') (back : ∀ c, R' (emb c) → R c) (p : Prog C R α) (s : σ) (Q : α → σ → Prop) :
    (p.lift emb back).wp Ψ s Q =
      p.wp (fun c s K => Ψ (emb c) s fun s' r => K s' (back c r)) s Q := by
  induction p generalizing s with
  | ret a => rfl
  | call c k ih =>
      show Ψ (emb c) s _ = Ψ (emb c) s _
      congr 1
      funext s' r
      exact ih _ s'

/-- A weaker postcondition. -/
theorem wp_mono (hΦ : ∀ c s (K K' : σ → R c → Prop), (∀ s' r, K s' r → K' s' r) →
      Φ c s K → Φ c s K') {p : Prog C R α} {s : σ} {Q Q' : α → σ → Prop}
    (h : p.wp Φ s Q) (hQ : ∀ a s', Q a s' → Q' a s') : p.wp Φ s Q' := by
  induction p generalizing s with
  | ret a => exact hQ a s h
  | call c k ih => exact hΦ c s _ _ (fun s' r hr => ih r hr) h

/-- A weaker transformer. -/
theorem wp_imp {Ψ : (c : C) → σ → (σ → R c → Prop) → Prop}
    (hΨ : ∀ c s (K K' : σ → R c → Prop), (∀ s' r, K s' r → K' s' r) → Ψ c s K → Ψ c s K')
    (hΦ : ∀ c s K, Φ c s K → Ψ c s K) {p : Prog C R α} {s : σ} {Q : α → σ → Prop}
    (h : p.wp Φ s Q) : p.wp Ψ s Q := by
  induction p generalizing s with
  | ret a => exact h
  | call c k ih => exact hΨ c s _ _ (fun s' r hr => ih r hr) (hΦ c s _ h)

end

end Prog

/-- Programs whose calls can fail. A failed call throws its error. -/
abbrev Await (C : Type) (Res : C → Type) (Err : Type) : Type → Type :=
  ExceptT Err (Prog C fun c => Except Err (Res c))

namespace Await

variable {C : Type} {Res : C → Type} {Err : Type} {α β : Type}

/-- `await c`: the answer of the call, or the error it fails with. -/
def await (c : C) : Await C Res Err (Res c) :=
  ExceptT.mk (Prog.call c Prog.ret)

/-- `try { body } catch (err) { handler } finally { fin }`. The last block runs on both
ways out. -/
def tryFinally (body : Await C Res Err α) (handler : Err → Await C Res Err α)
    (fin : Await C Res Err Unit) : Await C Res Err α :=
  ExceptT.mk do
    let r ← (tryCatch body handler).run
    match ← fin.run with
    | .ok _ => pure r
    | .error e => pure (.error e)

/-- The weakest precondition of a program that can throw. -/
def wp {σ : Type} (Φ : (c : C) → σ → (σ → Except Err (Res c) → Prop) → Prop)
    (p : Await C Res Err α) (s : σ) (Q : Except Err α → σ → Prop) : Prop :=
  Prog.wp Φ p.run s Q

/-- A return makes no call. -/
theorem only_pure {P : C → Prop} (a : α) : (pure a : Await C Res Err α).run.Only P :=
  trivial

/-- A throw makes no call. -/
theorem only_throw {P : C → Prop} (e : Err) : (throw e : Await C Res Err α).run.Only P :=
  trivial

/-- Awaiting a call makes that call and no other. -/
theorem only_await {P : C → Prop} {c : C} (h : P c) :
    (await c : Await C Res Err (Res c)).run.Only P :=
  ⟨h, fun _ => trivial⟩

/-- A sequence keeps to the calls both of its parts keep to, also when the first one
throws. -/
theorem only_bind {P : C → Prop} {p : Await C Res Err α} {f : α → Await C Res Err β}
    (hp : p.run.Only P) (hf : ∀ a, (f a).run.Only P) : (p >>= f).run.Only P := by
  refine Prog.only_bind hp fun r => ?_
  -- The program goes on or has thrown.
  cases r with
  | ok a => exact hf a
  | error e => exact trivial

/-- A `try`/`catch`/`finally` keeps to the calls its three blocks keep to. -/
theorem only_tryFinally {P : C → Prop} {body : Await C Res Err α}
    {handler : Err → Await C Res Err α} {fin : Await C Res Err Unit} (hbody : body.run.Only P)
    (hhandler : ∀ e, (handler e).run.Only P) (hfin : fin.run.Only P) :
    (tryFinally body handler fin).run.Only P := by
  refine Prog.only_bind (Prog.only_bind hbody fun r => ?_) fun r => ?_
  · cases r with
    | ok a => exact trivial
    | error e => exact hhandler e
  · refine Prog.only_bind hfin fun f => ?_
    cases f with
    | ok _ => exact trivial
    | error e => exact trivial

section
variable {σ : Type} {Φ : (c : C) → σ → (σ → Except Err (Res c) → Prop) → Prop}

/-- A return ends well with its value. -/
@[simp] theorem wp_pure (a : α) (s : σ) (Q : Except Err α → σ → Prop) :
    wp Φ (pure a : Await C Res Err α) s Q ↔ Q (.ok a) s := Iff.rfl

/-- A throw ends with its error. -/
@[simp] theorem wp_throw (e : Err) (s : σ) (Q : Except Err α → σ → Prop) :
    wp Φ (throw e : Await C Res Err α) s Q ↔ Q (.error e) s := Iff.rfl

/-- In a sequence the second part runs only when the first one ended well; an error
passes it by. -/
theorem wp_bind (p : Await C Res Err α) (f : α → Await C Res Err β) (s : σ)
    (Q : Except Err β → σ → Prop) :
    wp Φ (p >>= f) s Q = wp Φ p s fun r s' =>
      match r with
      | .ok a => wp Φ (f a) s' Q
      | .error e => Q (.error e) s' := by
  show Prog.wp Φ (p.run >>= _) s Q = _
  rw [Prog.wp_bind]
  unfold wp
  congr 1
  funext r s'
  cases r <;> rfl

/-- What follows a throw is never reached. -/
@[simp] theorem wp_throw_bind (e : Err) (f : α → Await C Res Err β) (s : σ)
    (Q : Except Err β → σ → Prop) :
    wp Φ ((throw e : Await C Res Err α) >>= f) s Q ↔ Q (.error e) s := Iff.rfl

/-- A `try`/`catch` hands the error of its body to the handler. -/
theorem wp_tryCatch (body : Await C Res Err α) (handler : Err → Await C Res Err α) (s : σ)
    (Q : Except Err α → σ → Prop) :
    wp Φ (tryCatch body handler) s Q = wp Φ body s fun r s' =>
      match r with
      | .ok a => Q (.ok a) s'
      | .error e => wp Φ (handler e) s' Q := by
  show Prog.wp Φ (body.run >>= _) s Q = _
  rw [Prog.wp_bind]
  unfold wp
  congr 1
  funext r s'
  cases r <;> rfl

/-- A postcondition may be weakened, when the calls allow it. -/
theorem wp_mono (hΦ : ∀ c s (K K' : σ → Except Err (Res c) → Prop),
      (∀ s' r, K s' r → K' s' r) → Φ c s K → Φ c s K') {p : Await C Res Err α} {s : σ}
    {Q Q' : Except Err α → σ → Prop} (h : wp Φ p s Q) (hQ : ∀ r s', Q r s' → Q' r s') :
    wp Φ p s Q' :=
  Prog.wp_mono hΦ h hQ

/-- A `finally` block runs after a body that ended well and after the handler of one
that threw; its own error replaces the outcome. -/
theorem wp_tryFinally (body : Await C Res Err α) (handler : Err → Await C Res Err α)
    (fin : Await C Res Err Unit) (s : σ) (Q : Except Err α → σ → Prop) :
    wp Φ (tryFinally body handler fin) s Q = wp Φ body s fun r s' =>
      match r with
      | .ok a => wp Φ fin s' fun f s'' =>
          match f with
          | .ok _ => Q (.ok a) s''
          | .error e => Q (.error e) s''
      | .error e => wp Φ (handler e) s' fun r' s'' => wp Φ fin s'' fun f s''' =>
          match f with
          | .ok _ => Q r' s'''
          | .error e' => Q (.error e') s''' := by
  show Prog.wp Φ ((body.run >>= _) >>= _) s Q = _
  rw [Prog.wp_bind, Prog.wp_bind]
  unfold wp
  congr 1
  funext r s'
  cases r with
  | ok a =>
      -- The body has resolved: no handler, then the last block.
      show Prog.wp Φ (fin.run >>= _) s' Q = _
      rw [Prog.wp_bind]
      congr 1
      funext f s''
      cases f <;> rfl
  | error e =>
      -- The body has thrown: the handler, then the last block in the state it leaves.
      show Prog.wp Φ (handler e).run s' _ = _
      congr 1
      funext r' s''
      rw [Prog.wp_bind]
      congr 1
      funext f s'''
      cases f <;> rfl

end

end Await

end ReadCommitted
