import Vanguard.Library.Program

/-!
# `Vanguard.Library.Handlers`: job handlers and what they leave behind

A `Crew` runs one program for each job that it takes. The calls of a program have effects outside
of it, a file or a message, and `log` lists all of them with their jobs. What a call does
may depend on a world that others change at any time, and a call that fails may have had its
effect.

`Emits E adm good p done` says that the program `p` of a handler with the effects `done` so far
has, in every environment that `adm` admits, only effects that are `good` after the ones before
it. A crew whose handlers all emit good
effects has only good ones in its log: `Crew.Sound`, and `Crew.Sound.step` for one step.
-/

set_option autoImplicit false

namespace ReadCommitted

variable {Job C Env Err World Fx α : Type} {Res : C → Type}

/-- What the calls of the handlers do in a world: their effects and their answers. -/
abbrev Effects (C Env Err World Fx : Type) (Res : C → Type) : Type :=
  World → (c : C) → Env → List Fx × Except Err (Res c)

/-- A handler: its job and what is left of its program. -/
structure Handler (Job C Err α : Type) (Res : C → Type) where
  job : Job
  prog : Prog C (fun c => Except Err (Res c)) α

/-- The handlers that have started, and the effects that they have had. -/
structure Crew (Job C Err Fx α : Type) (Res : C → Type) where
  active : List (Handler Job C Err α Res)
  log : List (Job × Fx)

/-- A step of a crew: it takes a job from the queues, or a handler makes its next call. -/
inductive CrewAction (Env : Type) where
  | take (n : Nat)
  | perform (i : Nat) (env : Env)

/-- A step in an environment that `adm` admits. -/
def CrewAction.Admitted (adm : Env → Prop) : CrewAction Env → Prop
  | take _ => True
  | perform _ env => adm env

namespace Crew

/-- The crew before its first job. -/
def idle : Crew Job C Err Fx α Res := ⟨[], []⟩

/-- One step of a crew in a world. -/
def step (E : Effects C Env Err World Fx Res)
    (body : Job → Prog C (fun c => Except Err (Res c)) α) (jobs : List Job) (world : World)
    (crew : Crew Job C Err Fx α Res) : CrewAction Env → Option (Crew Job C Err Fx α Res)
  | .take n => jobs[n]?.map fun job => { crew with active := crew.active ++ [⟨job, body job⟩] }
  | .perform i env =>
    match crew.active[i]? with
    | some ⟨job, .call c k⟩ =>
      let (fxs, r) := E world c env
      some
        { active := crew.active.set i ⟨job, k r⟩
          log := crew.log ++ fxs.map fun fx => (job, fx) }
    | _ => none

end Crew

/-! ### The effects of a program -/

/-- What a call may do: its effects are good after the ones before it. -/
def Effects.allows (E : Effects C Env Err World Fx Res) (adm : Env → Prop)
    (good : List Fx → Fx → Prop) (c : C) (done : List Fx)
    (K : List Fx → Except Err (Res c) → Prop) : Prop :=
  ∀ world env, adm env → (∀ fx ∈ (E world c env).1, good done fx) ∧
    K (done ++ (E world c env).1) (E world c env).2

/-- Every effect of the program is good after the ones before it. -/
def Emits (E : Effects C Env Err World Fx Res) (adm : Env → Prop) (good : List Fx → Fx → Prop)
    (p : Prog C (fun c => Except Err (Res c)) α) (done : List Fx) (Q : α → List Fx → Prop) : Prop :=
  p.wp (E.allows adm good) done Q

section
variable {E : Effects C Env Err World Fx Res} {adm : Env → Prop} {good : List Fx → Fx → Prop}
  {done : List Fx}

/-- A program that throws has the effects before it. -/
theorem emits_throw {β : Type} {e : Err} {Q : Except Err β → List Fx → Prop}
    (h : Q (.error e) done) :
    Emits E adm good (throw e : Await C Res Err β).run done Q := h

/-- A return emits nothing. -/
theorem emits_pure {β : Type} {b : β} {Q : Except Err β → List Fx → Prop} (h : Q (.ok b) done) :
    Emits E adm good (pure b : Await C Res Err β).run done Q := h

/-- One call, then the rest of the program after its effects. -/
theorem emits_bind {β γ : Type} {p : Await C Res Err β} {f : β → Await C Res Err γ}
    {Q : Except Err γ → List Fx → Prop}
    (h : Emits E adm good p.run done fun r done' =>
      match r with
      | .ok b => Emits E adm good (f b).run done' Q
      | .error e => Q (.error e) done') :
    Emits E adm good (p >>= f).run done Q := by
  refine (Await.wp_bind p f done Q).mpr ?_
  exact h

/-- Awaiting a call emits what the call is allowed to. -/
theorem emits_await {c : C} {Q : Except Err (Res c) → List Fx → Prop}
    (h : E.allows adm good c done fun done' r => Q r done') :
    Emits E adm good (Await.await c : Await C Res Err (Res c)).run done Q := h

end

/-! ### The log of a crew -/

/-- Every effect in the log is good after effects of the same job that are in the log, and the
handlers go on so. `taken` holds of the jobs that the crew has taken. -/
structure Crew.Sound (E : Effects C Env Err World Fx Res) (adm : Env → Prop)
    (good : Job → List Fx → Fx → Prop) (taken : Job → Prop) (crew : Crew Job C Err Fx α Res) :
    Prop where
  log : ∀ job fx, (job, fx) ∈ crew.log →
    taken job ∧ ∃ done, (∀ fx' ∈ done, (job, fx') ∈ crew.log) ∧ good job done fx
  active : ∀ h ∈ crew.active, taken h.job ∧
    ∃ done, (∀ fx ∈ done, (h.job, fx) ∈ crew.log) ∧
      Emits E adm (good h.job) h.prog done fun _ _ => True

namespace Crew.Sound

variable {E : Effects C Env Err World Fx Res} {adm : Env → Prop}
  {good : Job → List Fx → Fx → Prop} {taken taken' : Job → Prop}
  {crew crew' : Crew Job C Err Fx α Res}

/-- A crew that has taken no job is sound. -/
theorem idle : Crew.Sound E adm good taken (Crew.idle : Crew Job C Err Fx α Res) where
  log _ _ h := absurd h List.not_mem_nil
  active _ h := absurd h List.not_mem_nil

/-- What holds of the jobs that were taken may hold of more of them later. -/
theorem mono (h : crew.Sound E adm good taken) (htaken : ∀ job, taken job → taken' job) :
    crew.Sound E adm good taken' where
  log job fx hfx := ⟨htaken job (h.log job fx hfx).1, (h.log job fx hfx).2⟩
  active a ha := ⟨htaken a.job (h.active a ha).1, (h.active a ha).2⟩

/-- A step of a crew whose jobs all emit good effects. -/
theorem step {body : Job → Prog C (fun c => Except Err (Res c)) α} {jobs : List Job}
    {world : World} {a : CrewAction Env}
    (hbody : ∀ job, Emits E adm (good job) (body job) [] fun _ _ => True)
    (hjobs : ∀ job ∈ jobs, taken job) (ha : a.Admitted adm) (h : crew.Sound E adm good taken)
    (hs : crew.step E body jobs world a = some crew') : crew'.Sound E adm good taken := by
  cases a with
  | take n =>
      obtain ⟨job, hjob, rfl⟩ := Option.map_eq_some_iff.mp hs
      refine ⟨h.log, fun a ha => ?_⟩
      rcases List.mem_append.mp ha with ha | ha
      · exact h.active a ha
      · obtain rfl := List.mem_singleton.mp ha
        exact ⟨hjobs job (List.mem_of_getElem? hjob), [], fun _ h => absurd h List.not_mem_nil,
          hbody job⟩
  | perform i env =>
      simp only [Crew.step] at hs
      split at hs
      · rename_i job c k hi
        obtain ⟨htaken, done, hdone, hemits⟩ := h.active _ (List.mem_of_getElem? hi)
        have hcall := hemits world env ha
        cases hs
        generalize E world c env = o at hcall
        -- The effects of the call are the last ones of the log.
        have hold : ∀ {e : Job × Fx}, e ∈ crew.log →
            e ∈ crew.log ++ o.1.map fun fx => (job, fx) := List.mem_append_left _
        refine ⟨fun job' fx hfx => ?_, fun a ha => ?_⟩
        · rcases List.mem_append.mp hfx with hfx | hfx
          · obtain ⟨ht, done', hdone', hgood⟩ := h.log job' fx hfx
            exact ⟨ht, done', fun fx' hfx' => hold (hdone' fx' hfx'), hgood⟩
          · obtain ⟨fx', hfx', he⟩ := List.mem_map.mp hfx
            cases he
            exact ⟨htaken, done, fun fx' hfx' => hold (hdone fx' hfx'), hcall.1 fx hfx'⟩
        · rcases List.mem_or_eq_of_mem_set ha with ha | rfl
          · obtain ⟨ht, done', hdone', he⟩ := h.active a ha
            exact ⟨ht, done', fun fx hfx => hold (hdone' fx hfx), he⟩
          · refine ⟨htaken, done ++ o.1, fun fx hfx => ?_, hcall.2⟩
            rcases List.mem_append.mp hfx with hfx | hfx
            · exact hold (hdone fx hfx)
            · exact List.mem_append_right _ (List.mem_map.mpr ⟨fx, hfx, rfl⟩)
      · cases hs

end Crew.Sound

end ReadCommitted
