import Vanguard.Library.Sessions
import Mathlib.Data.List.Basic

/-!
# `Vanguard.Library.RelyGuarantee`: one proof per program, facts about every run

A program that runs among others is proved once, on its own. `Engine.rely` is the
predicate transformer of one command: before the command the other sessions may commit
(`Interference`), and what the command commits has to satisfy a guarantee. With it
`Await.wp` is a rely-guarantee triple of a whole program.

`World.Sound` says that every session of a world is at a point of its program where its
triple still holds. `World.Sound.step` keeps it over a step and reads off what the step
committed. `Run.sound` is the result for whole runs, for two kinds of interference:

* `Interference.concurrent`: the others may commit anything that does not clash with the
  uncommitted row versions of the session;
* `Interference.alone`: nobody else commits. It is for runs whose calls do not overlap
  (`SerialStep`).

`Run.timeline_induction` proves an invariant of the committed log from the guarantees.
-/

set_option autoImplicit false

namespace ReadCommitted

variable {D Row Stmt Ext Env Err Call α : Type} {S : Stmt → Type} {X : Ext → Type}
  [Store D Row]

/-- What the other sessions may do between two commands of a session that holds the
uncommitted row versions `ws`. -/
structure Interference (D Row : Type) [Store D Row] where
  rel : List Row → Timeline D Row → Timeline D Row → Prop
  quiet : ∀ {ws t t'}, rel ws t t' → Quiet ws t t'
  refl : ∀ {ws t}, rel ws t t
  trans : ∀ {ws t t' t''}, rel ws t t' → rel ws t' t'' → rel ws t t''
  weaken : ∀ {ws t t'}, rel ws t t' → rel [] t t'

namespace Interference

/-- The others commit anything that does not clash. -/
def concurrent : Interference D Row where
  rel := Quiet
  quiet h := h
  refl := Quiet.refl
  trans := Quiet.trans
  weaken h := h.mono (List.nil_subset _)

/-- Nobody else commits. -/
def alone : Interference D Row where
  rel _ t t' := t = t'
  quiet h := h ▸ Quiet.refl
  refl := rfl
  trans h h' := h.trans h'
  weaken h := h

/-- Interference only adds to the history. -/
theorem le (I : Interference D Row) {ws : List Row} {t t' : Timeline D Row}
    (h : I.rel ws t t') : t ≤ t' := (I.quiet h).le

/-- A commit of another session that does not clash is an interference. -/
def Shared (I : Interference D Row) : Prop :=
  ∀ ws t t' rows, I.rel ws t t' → compatible (D := D) rows ws = true →
    I.rel ws t (t'.publish rows)

/-- Concurrent interference is shared: what one session may do, the others expect. -/
theorem concurrent_shared : (concurrent : Interference D Row).Shared :=
  fun _ _ _ rows h hc => h.publish rows hc

end Interference

/-- What a program under proof knows of its own session: the last moment it has seen, the
moment of its first command, and its transaction. -/
structure View (D Row Env : Type) where
  time : Timeline D Row
  seen : Option (Timeline D Row)
  tx : Tx Env Row

namespace Engine

/-- The predicate transformer of one command. The others interfere first. Then the command
runs in an environment that `adm` admits, and its batch satisfies `guar`, at the moment of
the first command and at the moment of the commit. -/
def rely (E : Engine D Row Stmt Ext Env Err S X) (I : Interference D Row)
    (adm : Env → Prop) (guar : Timeline D Row → Timeline D Row → List Row → Prop)
    (c : Command Stmt Ext) (v : View D Row Env)
    (K : View D Row Env → Except Err (c.Res S X) → Prop) : Prop :=
  ∀ t env, I.rel v.tx.writes v.time t → adm env →
    ((E.step c env t.now v.tx).publish ≠ [] →
      guar (v.seen.getD t) t (E.step c env t.now v.tx).publish) ∧
    K ⟨t.publish (E.step c env t.now v.tx).publish, some (v.seen.getD t),
        (E.step c env t.now v.tx).tx⟩
      (E.step c env t.now v.tx).answer

/-- The rule on one command is monotone in what follows. -/
theorem rely_mono {E : Engine D Row Stmt Ext Env Err S X} {I : Interference D Row}
    {adm : Env → Prop} {guar : Timeline D Row → Timeline D Row → List Row → Prop}
    (c : Command Stmt Ext) (v : View D Row Env)
    (K K' : View D Row Env → Except Err (c.Res S X) → Prop) (hK : ∀ v' r, K v' r → K' v' r)
    (h : E.rely I adm guar c v K) : E.rely I adm guar c v K' :=
  fun t env hrel hadm => ⟨(h t env hrel hadm).1, hK _ _ (h t env hrel hadm).2⟩

/-- A guarantee that every batch satisfies. -/
theorem rely_trivial {E : Engine D Row Stmt Ext Env Err S X} {I : Interference D Row}
    {adm : Env → Prop} {guar : Timeline D Row → Timeline D Row → List Row → Prop}
    (hguar : ∀ seen t rows, guar seen t rows)
    {p : Prog (Command Stmt Ext) (fun c => Except Err (c.Res S X)) α} {v : View D Row Env} :
    p.wp (E.rely I adm guar) v fun _ _ => True := by
  induction p generalizing v with
  | ret a => exact trivial
  | call c k ih => exact fun t env _ _ => ⟨fun _ => hguar _ _ _, ih _⟩

/-- A triple proved for nobody else describes the program run alone. -/
theorem eval_of_wp (E : Engine D Row Stmt Ext Env Err S X)
    {guar : Timeline D Row → Timeline D Row → List Row → Prop} {adm : Env → Prop}
    (p : Prog (Command Stmt Ext) (fun c => Except Err (c.Res S X)) α) (envs : Nat → Env)
    (henvs : ∀ n, adm (envs n)) (v : View D Row Env) {Q : α → View D Row Env → Prop}
    (h : p.wp (E.rely Interference.alone adm guar) v Q) :
    ∃ seen, Q (E.eval p envs v.time v.tx).1
      ⟨(E.eval p envs v.time v.tx).2.1, seen, (E.eval p envs v.time v.tx).2.2⟩ := by
  induction p generalizing envs v with
  | ret a => exact ⟨v.seen, h⟩
  | call c k ih =>
      -- Alone, the command runs at the very moment that the program has seen last.
      obtain ⟨-, hk⟩ := h v.time (envs 0) rfl (henvs 0)
      exact ih _ _ (fun n => henvs (n + 1)) _ hk

end Engine

section
variable (E : Engine D Row Stmt Ext Env Err S X) (I : Interference D Row)
  (adm : Env → Prop)
  (guar : Call → Timeline D Row → Timeline D Row → Timeline D Row → List Row → Prop)
  (post : Call → Timeline D Row → α → View D Row Env → Prop)

/-- The triple of the rest of a session's program still holds. -/
def Session.Sound (s : Session D Row Stmt Ext Env Err Call α S X) (now : Timeline D Row) :
    Prop :=
  ∃ t, t ≤ now ∧ (s.prog.finished = false → I.rel s.tx.writes t now) ∧
    s.prog.wp (E.rely I adm (guar s.call s.born)) ⟨t, s.seen, s.tx⟩ (post s.call s.born)

/-- Every session of the world is sound. -/
def World.Sound (w : World D Row Stmt Ext Env Err Call α S X) : Prop :=
  ∀ s ∈ w.sessions, s.Sound E I adm guar post w.timeline

end

/-- Every session but `i` has finished. -/
def World.Solo (w : World D Row Stmt Ext Env Err Call α S X) (i : Nat) : Prop :=
  ∀ j s, w.sessions[j]? = some s → j ≠ i → s.prog.finished = true

/-- What a step of the session `i` commits. -/
def World.batch (E : Engine D Row Stmt Ext Env Err S X)
    (w : World D Row Stmt Ext Env Err Call α S X) (i : Nat) (env : Env) : List Row :=
  match w.sessions[i]? with
  | none => []
  | some s =>
    match s.prog with
    | .ret _ => []
    | .call c _ => (E.step c env w.timeline.now s.tx).publish

/-- An element of a list to which one element has been added at the end. -/
theorem getElem?_snoc_cases {β : Type} {l : List β} {x y : β} {i : Nat}
    (h : (l ++ [x])[i]? = some y) : l[i]? = some y ∨ (i = l.length ∧ y = x) := by
  rw [List.getElem?_append] at h
  split at h
  · exact Or.inl h
  · have hlt := (List.getElem?_eq_some_iff.mp h).1
    have hi : i = l.length := by
      rw [List.length_singleton] at hlt
      omega
    subst hi
    rw [Nat.sub_self] at h
    exact Or.inr ⟨rfl, (Option.some.inj h).symm⟩

/-- An element of a list in which one element has been replaced. -/
theorem getElem?_set_cases {β : Type} {l : List β} {x y : β} {i j : Nat}
    (h : (l.set i x)[j]? = some y) : (j = i ∧ y = x) ∨ (j ≠ i ∧ l[j]? = some y) := by
  rw [List.getElem?_set] at h
  split at h
  · rename_i hij
    split at h
    · exact Or.inl ⟨hij.symm, (Option.some.inj h).symm⟩
    · cases h
  · rename_i hij
    exact Or.inr ⟨Ne.symm hij, h⟩

/-- The two kinds of steps: a call starts, or a session runs one command. -/
theorem World.step_cases {E : Engine D Row Stmt Ext Env Err S X}
    {body : Call → Prog (Command Stmt Ext) (fun c => Except Err (c.Res S X)) α}
    {w w' : World D Row Stmt Ext Env Err Call α S X} {a : Action Call Env}
    (h : w.step E body a = some w') :
    (∃ c, a = .spawn c ∧
      w' = { w with sessions := w.sessions ++ [⟨c, w.timeline, none, .idle, body c⟩] }) ∨
    (∃ i env s c k, a = .step i env ∧ w.sessions[i]? = some s ∧ s.prog = .call c k ∧
      w.batch E i env = (E.step c env w.timeline.now s.tx).publish ∧
      (∀ j s', w.sessions[j]? = some s' → j ≠ i →
        compatible (D := D) (w.batch E i env) s'.tx.writes = true) ∧
      w' = { timeline := w.timeline.publish (w.batch E i env)
             sessions := w.sessions.set i
              { s with
                  seen := some (s.seen.getD w.timeline)
                  tx := (E.step c env w.timeline.now s.tx).tx
                  prog := k (E.step c env w.timeline.now s.tx).answer } }) := by
  cases a with
  | spawn c => exact Or.inl ⟨c, rfl, (Option.some.inj h).symm⟩
  | step i env =>
      refine Or.inr ?_
      simp only [World.step] at h
      split at h
      · cases h
      · rename_i s hs
        split at h
        · cases h
        · rename_i c k hk
          split at h
          · rename_i hu
            have hb : w.batch E i env = (E.step c env w.timeline.now s.tx).publish := by
              simp [World.batch, hs, hk]
            refine ⟨i, env, s, c, k, rfl, hs, hk, hb, ?_, ?_⟩
            · intro j s' hs' hj
              have hm : s' ∈ w.sessions.eraseIdx i :=
                List.mem_eraseIdx_iff_getElem?.mpr ⟨j, hj, hs'⟩
              have hc := List.all_eq_true.mp hu s' hm
              rw [compatible_iff] at hc ⊢
              exact fun r hr => hc r (List.mem_append_left _ (hb ▸ hr))
            · rw [hb]
              exact (Option.some.inj h).symm
          · cases h

/-- What holds of the calls of the last world of a run holds of every call that has started. -/
theorem Run.of_calls {E : Engine D Row Stmt Ext Env Err S X}
    {body : Call → Prog (Command Stmt Ext) (fun c => Except Err (c.Res S X)) α}
    {ok : World D Row Stmt Ext Env Err Call α S X → Action Call Env → Prop}
    {w₀ w : World D Row Stmt Ext Env Err Call α S X} {P : Call → Prop}
    (h : Run E body ok w₀ w) (hP : ∀ s ∈ w.sessions, P s.call) :
    Run E body (fun _ a => ∀ c, a = .spawn c → P c) w₀ w := by
  induction h with
  | refl => exact .refl
  | @step w w' a _ _ hs ih =>
      rcases World.step_cases hs with ⟨c, rfl, rfl⟩ | ⟨i, env, s, c, k, rfl, hi, -, -, -, rfl⟩
      · refine (ih fun s hs => hP s (List.mem_append_left _ hs)).step _ ?_ hs
        rintro c' hc'
        cases hc'
        exact hP _ (List.mem_append_right _ (List.mem_singleton_self _))
      · refine (ih fun s' hs' => ?_).step _ (fun c hc => by cases hc) hs
        -- The session of the step still has its call.
        obtain ⟨j, hj⟩ := List.mem_iff_getElem?.mp hs'
        by_cases hij : i = j
        · subst hij
          obtain rfl := Option.some.inj (hi.symm.trans hj)
          have hcall := hP _ (List.mem_of_getElem? (List.getElem?_set_self
            (List.getElem?_eq_some_iff.mp hi).1))
          exact hcall
        · refine hP s' (List.mem_of_getElem? (i := j) ?_)
          rw [List.getElem?_set_ne hij]
          exact hj

/-- A step keeps the world sound. What a session commits satisfies its guarantee. -/
theorem World.Sound.step {E : Engine D Row Stmt Ext Env Err S X}
    {I : Interference D Row} {adm : Env → Prop}
    {guar : Call → Timeline D Row → Timeline D Row → Timeline D Row → List Row → Prop}
    {post : Call → Timeline D Row → α → View D Row Env → Prop}
    {body : Call → Prog (Command Stmt Ext) (fun c => Except Err (c.Res S X)) α}
    {w w' : World D Row Stmt Ext Env Err Call α S X} {a : Action Call Env}
    (hw : w.Sound E I adm guar post) (hs : w.step E body a = some w')
    (hmode : I.Shared ∨ ∀ i env, a = .step i env → w.Solo i)
    (hadm : ∀ i env, a = .step i env → adm env)
    (hspawn : ∀ c, a = .spawn c → (body c).wp (E.rely I adm (guar c w.timeline))
      ⟨w.timeline, none, .idle⟩ (post c w.timeline)) :
    w'.Sound E I adm guar post ∧
      (w'.timeline = w.timeline ∨
        ∃ i env s, a = .step i env ∧ w.sessions[i]? = some s ∧ w.batch E i env ≠ [] ∧
          w'.timeline = w.timeline.commit (w.batch E i env) ∧
          guar s.call s.born (s.seen.getD w.timeline) w.timeline (w.batch E i env)) := by
  rcases World.step_cases hs with ⟨c, rfl, rfl⟩ | ⟨i, env, s, c, k, rfl, hi, hk, hb, hc, rfl⟩
  · -- A call starts: nothing is committed, and the new session has its own triple.
    refine ⟨?_, Or.inl rfl⟩
    intro s' hs'
    rcases List.mem_append.mp hs' with hs' | hs'
    · exact hw s' hs'
    · obtain rfl := List.mem_singleton.mp hs'
      exact ⟨w.timeline, le_refl _, fun _ => I.refl, hspawn c rfl⟩
  · obtain ⟨t, hle, hrel, hwp⟩ := hw s (List.mem_of_getElem? hi)
    have hrel' := hrel (by rw [hk]; rfl)
    rw [hk] at hwp
    -- What was committed since `t` is an interference, so the triple applies at this moment.
    obtain ⟨hg, hrest⟩ := hwp w.timeline env hrel' (hadm i env rfl)
    rw [← hb] at hg hrest
    constructor
    · intro s' hs'
      obtain ⟨j, hj⟩ := List.mem_iff_getElem?.mp hs'
      rcases getElem?_set_cases hj with ⟨-, rfl⟩ | ⟨hij, hj⟩
      · -- The session that stepped.
        exact ⟨_, le_refl _, fun _ => I.refl, hrest⟩
      · -- Another session: the commit is an interference, or it has finished.
        obtain ⟨t', hle', hrel', hwp'⟩ := hw s' (List.mem_of_getElem? hj)
        refine ⟨t', Timeline.le_publish _ hle', fun hf => ?_, hwp'⟩
        rcases hmode with hsh | hsolo
        · exact hsh _ _ _ _ (hrel' hf) (hc j s' hj hij)
        · have := hsolo i env rfl j s' hj hij
          rw [this] at hf
          cases hf
    · by_cases hne : w.batch E i env = []
      · exact Or.inl (by simp [hne])
      · refine Or.inr ⟨i, env, s, rfl, hi, hne, ?_, hg hne⟩
        show w.timeline.publish (w.batch E i env) = _
        cases hbr : w.batch E i env with
        | nil => exact absurd hbr hne
        | cons r rows => rfl

/-! ### Calls that do not overlap -/

/-- In a run of complete calls, a call starts only when every earlier one has finished. -/
def SerialStep (w : World D Row Stmt Ext Env Err Call α S X) (a : Action Call Env) : Prop :=
  ∀ c, a = .spawn c → w.quiescent = true

/-- At most one session has not finished. -/
def World.AtMostOne (w : World D Row Stmt Ext Env Err Call α S X) : Prop :=
  ∀ (i j : Nat) (s s' : Session D Row Stmt Ext Env Err Call α S X),
    w.sessions[i]? = some s → w.sessions[j]? = some s' →
      s.prog.finished = false → s'.prog.finished = false → i = j

omit [Store D Row] in
/-- An unfinished session of such a world is the only one. -/
theorem World.AtMostOne.solo {w : World D Row Stmt Ext Env Err Call α S X}
    (h : w.AtMostOne) {i : Nat} {s : Session D Row Stmt Ext Env Err Call α S X}
    (hs : w.sessions[i]? = some s) (hf : s.prog.finished = false) : w.Solo i := by
  intro j s' hs' hj
  cases hf' : s'.prog.finished with
  | true => rfl
  | false => exact absurd (h j i s' s hs' hs hf' hf) hj

/-- A step of a serial run keeps at most one session unfinished. -/
theorem World.AtMostOne.step {E : Engine D Row Stmt Ext Env Err S X}
    {body : Call → Prog (Command Stmt Ext) (fun c => Except Err (c.Res S X)) α}
    {w w' : World D Row Stmt Ext Env Err Call α S X} {a : Action Call Env}
    (h : w.AtMostOne) (hs : w.step E body a = some w') (ha : SerialStep w a) :
    w'.AtMostOne := by
  rcases World.step_cases hs with ⟨c, rfl, rfl⟩ | ⟨i, env, s, c, k, rfl, hi, hk, -, -, rfl⟩
  · -- A call starts: every earlier one has finished.
    have hq := List.all_eq_true.mp (ha c rfl)
    have key : ∀ (j : Nat) s', (w.sessions ++ [⟨c, w.timeline, none, .idle, body c⟩])[j]? =
        some s' → s'.prog.finished = false → j = w.sessions.length := by
      intro j s' hj hf
      rcases getElem?_snoc_cases hj with hj | ⟨hlast, -⟩
      · have := hq s' (List.mem_of_getElem? hj)
        rw [hf] at this
        cases this
      · exact hlast
    intro j j' s₁ s₂ h₁ h₂ hf₁ hf₂
    rw [key j s₁ h₁ hf₁, key j' s₂ h₂ hf₂]
  · -- The session that steps is the only one that has not finished.
    have hsolo := h.solo hi (by rw [hk]; rfl)
    have key : ∀ j s', (w.sessions.set i
        { s with
            seen := some (s.seen.getD w.timeline)
            tx := (E.step c env w.timeline.now s.tx).tx
            prog := k (E.step c env w.timeline.now s.tx).answer })[j]? = some s' →
        s'.prog.finished = false → j = i := by
      intro j s' hj hf
      by_contra hne
      rw [List.getElem?_set_ne (Ne.symm hne)] at hj
      rw [hsolo j s' hj hne] at hf
      cases hf
    intro j j' s₁ s₂ h₁ h₂ hf₁ hf₂
    rw [key j s₁ h₁ hf₁, key j' s₂ h₂ hf₂]

/-- In a serial run at most one session is ever unfinished. -/
theorem Run.atMostOne {E : Engine D Row Stmt Ext Env Err S X}
    {body : Call → Prog (Command Stmt Ext) (fun c => Except Err (c.Res S X)) α}
    {ok : World D Row Stmt Ext Env Err Call α S X → Action Call Env → Prop}
    {t : Timeline D Row} {w : World D Row Stmt Ext Env Err Call α S X}
    (hser : ∀ w a, ok w a → SerialStep w a) (h : Run E body ok (World.start t) w) :
    w.AtMostOne := by
  induction h with
  | refl => intro i j s s' hi; simp [World.start] at hi
  | step a _ ha hs ih => exact ih.step hs (hser _ _ ha)

/-! ### Whole runs -/

section
variable {E : Engine D Row Stmt Ext Env Err S X} {I : Interference D Row}
  {adm : Env → Prop}
  {guar : Call → Timeline D Row → Timeline D Row → Timeline D Row → List Row → Prop}
  {post : Call → Timeline D Row → α → View D Row Env → Prop}
  {body : Call → Prog (Command Stmt Ext) (fun c => Except Err (c.Res S X)) α}
  {ok : World D Row Stmt Ext Env Err Call α S X → Action Call Env → Prop}
  {t₀ : Timeline D Row} {w : World D Row Stmt Ext Env Err Call α S X}

/-- The interference fits the runs: the others may commit, or calls do not overlap. -/
def Fits (I : Interference D Row)
    (ok : World D Row Stmt Ext Env Err Call α S X → Action Call Env → Prop) : Prop :=
  I.Shared ∨ ∀ w a, ok w a → SerialStep w a

/-- The mode condition of `World.Sound.step`, at a world of a run. -/
theorem Fits.mode (hfit : Fits I ok) (h : Run E body ok (World.start t₀) w)
    {a : Action Call Env} {w' : World D Row Stmt Ext Env Err Call α S X}
    (hs : w.step E body a = some w') :
    I.Shared ∨ ∀ i env, a = .step i env → w.Solo i := by
  rcases hfit with hsh | hser
  · exact Or.inl hsh
  · refine Or.inr fun i env ha => ?_
    subst ha
    rcases World.step_cases hs with ⟨c, ha, -⟩ | ⟨j, env', s, c, k, ha, hi, hk, -⟩
    · cases ha
    · cases ha
      exact (h.atMostOne hser).solo hi (by rw [hk]; rfl)

/-- Every world of a run is sound. -/
theorem Run.sound (hfit : Fits I ok) (hadm : ∀ w i env, ok w (.step i env) → adm env)
    (hspec : ∀ w c, ok w (.spawn c) → ∀ t, (body c).wp (E.rely I adm (guar c t))
      ⟨t, none, .idle⟩ (post c t))
    (h : Run E body ok (World.start t₀) w) : w.Sound E I adm guar post := by
  induction h with
  | refl => intro s hs; simp [World.start] at hs
  | @step w w' a h ha hs ih =>
      refine (ih.step hs (hfit.mode h hs) ?_ ?_).1
      · rintro i env rfl
        exact hadm _ _ _ ha
      · rintro c rfl
        exact hspec _ _ ha _

/-- The invariant rule. A property of the timeline that holds at the start, and that every
commit keeps, given the guarantee of the session that commits, holds after every run. -/
theorem Run.timeline_induction {J : Timeline D Row → Prop} (hfit : Fits I ok)
    (hadm : ∀ w i env, ok w (.step i env) → adm env)
    (hspec : ∀ w c, ok w (.spawn c) → ∀ t, (body c).wp (E.rely I adm (guar c t))
      ⟨t, none, .idle⟩ (post c t))
    (h₀ : J t₀)
    (hstep : ∀ w i env s, Run E body ok (World.start t₀) w → ok w (.step i env) →
      w.sessions[i]? = some s → w.batch E i env ≠ [] →
      guar s.call s.born (s.seen.getD w.timeline) w.timeline (w.batch E i env) →
      J w.timeline → J (w.timeline.commit (w.batch E i env)))
    (h : Run E body ok (World.start t₀) w) : J w.timeline := by
  induction h with
  | refl => exact h₀
  | @step w w' a h ha hs ih =>
      have hsound := h.sound hfit hadm hspec
      obtain ⟨-, hadv⟩ := hsound.step hs (hfit.mode h hs)
        (fun i env he => hadm _ i env (he ▸ ha)) (fun c he => hspec _ _ (he ▸ ha) _)
      rcases hadv with he | ⟨i, env, s, rfl, hi, hne, he, hg⟩
      · exact he ▸ ih
      · rw [he]
        exact hstep w i env s h ha hi hne hg ih

/-- A property of the call and of the timeline at its start that every start establishes
holds of every session. -/
theorem Run.session_born {C : Call → Timeline D Row → Prop}
    (hspawn : ∀ w c, Run E body ok (World.start t₀) w → ok w (.spawn c) → C c w.timeline)
    (h : Run E body ok (World.start t₀) w) : ∀ s ∈ w.sessions, C s.call s.born := by
  induction h with
  | refl => intro s hs; simp [World.start] at hs
  | @step w w' a h ha hs ih =>
      rcases World.step_cases hs with ⟨c, rfl, rfl⟩ | ⟨i, env, s, c, k, rfl, hi, -, -, -, rfl⟩
      · intro s hs
        rcases List.mem_append.mp hs with hs | hs
        · exact ih s hs
        · obtain rfl := List.mem_singleton.mp hs
          exact hspawn _ _ h ha
      · intro s' hs'
        rcases List.mem_or_eq_of_mem_set hs' with hs' | rfl
        · exact ih s' hs'
        · exact ih s (List.mem_of_getElem? hi)

end

end ReadCommitted
