import Vanguard.Library.History
import Vanguard.Proofs.Runs
import Vanguard.Services.Auth

/-!
# `Vanguard.Proofs.Registration`: organisations and their credentials

`register` inserts the organisation and its credential with two statements that commit
separately. `AuthDatabase.OneToOne` is the correspondence that the two tables should keep.

`register_spec` is the triple of a call: it commits nothing, or the organisation, or the
organisation and its credential. `Accounted` is the invariant of the runs: an organisation
without a credential is the last row of a call that has not ended. `oneToOne_of_run` is the
result for the runs in which no call fails after its organisation is stored (`LandingStep`).

Outside of them both halves fail. In `two_registrations_of_one_email` both calls find the
email unused, and the second `INSERT` of a credential breaks the unique key.
-/

set_option autoImplicit false

namespace Vanguard

open ReadCommitted

/-! ### The statements -/

/-- A constraint that let the statement through holds. -/
theorem requireAuth_ok {p : Bool} {e : PgError} (h : requireAuth p e = .ok ()) : p = true := by
  cases p with
  | true => rfl
  | false => cases h

/-- A successful `INSERT INTO organisations`. -/
theorem AuthSql.insertOrganisation_ok {input : CreateOrgInput} {env : Env} {db : AuthDatabase}
    {rows : List AuthRow} {ans : List Organisation}
    (h : (AuthSql.insertOrganisation input).exec env db = .ok (rows, ans)) :
    ∃ o, rows = [.organisation o] ∧ ans = [o] ∧ db.organisations.get? o.id = none := by
  obtain ⟨gstin, -, h⟩ := except_bind_ok h
  obtain ⟨_, hid, h⟩ := except_bind_ok h
  obtain ⟨_, -, h⟩ := except_bind_ok h
  cases h
  exact ⟨_, rfl, rfl, Option.isNone_iff_eq_none.mp (requireAuth_ok hid)⟩

/-- An `INSERT INTO organisation_credentials` that breaks no constraint. -/
theorem AuthSql.insertCredential_of {input : CreateCredentialInput} {env : Env}
    {db : AuthDatabase} (hid : db.credentials.get? env.uuid = none)
    (horg : ∀ c ∈ db.credentials, c.orgId ≠ input.orgId)
    (hemail : ∀ c ∈ db.credentials, c.email ≠ input.email)
    (hkey : (db.organisations.get? input.orgId).isSome = true) :
    (AuthSql.insertCredential input).exec env db =
      .ok ([.credential (input.row env)], [input.row env]) := by
  have horg : (db.credentials.rows.all fun c => c.orgId != input.orgId) = true := by
    simpa [Table.mem_def] using horg
  have hemail : (db.credentials.rows.all fun c => c.email != input.email) = true := by
    simpa [Table.mem_def] using hemail
  simp only [AuthSql.exec, hid, horg, hemail, hkey]
  rfl

/-! ### The triple of a call -/

/-- The one-to-one correspondence of the two tables. -/
structure AuthDatabase.OneToOne (db : AuthDatabase) : Prop where
  credential : ∀ o ∈ db.organisations, ∃! c, c ∈ db.credentials ∧ c.orgId = o.id
  organisation : ∀ c ∈ db.credentials, ∃ o ∈ db.organisations, o.id = c.orgId

/-- The command of `register` that runs next does not fail after the organisation is stored:
the `INSERT` of the credential meets no failure, a new id and an email that no credential has,
active or not, and `jwt.sign` accepts its arguments. -/
def Lands (runtime : AuthRuntime) (db : AuthDatabase) (env : Env) : AuthCmd → Prop
  | .pool (.insertCredential input) =>
    env.fault = false ∧ db.credentials.get? env.uuid = none ∧
      ∀ c ∈ db.credentials, c.email ≠ input.email
  | .ext (.sign payload) =>
    (runtime.jwtSign payload runtime.jwtSecret runtime.jwtExpiresIn env.now).isSome = true
  | _ => True

/-- A call that has stored the organisation `o` and nothing else owns it: no credential of it
exists. -/
def Owns (db : AuthDatabase) (rows : List AuthRow) : Prop :=
  ∀ o, rows = [.organisation o] → o ∈ db.organisations ∧ ∀ c ∈ db.credentials, c.orgId ≠ o.id

/-- What a call may use before a command. -/
def registerOwn (runtime : AuthRuntime) (c : AuthCmd) (env : Env) (rows : List AuthRow)
    (t : Timeline AuthDatabase AuthRow) : Prop :=
  Lands runtime t.now env c ∧ Owns t.now rows

/-- What a call commits, after the rows that it has committed before. -/
inductive Registers (db : AuthDatabase) : List AuthRow → List AuthRow → Prop where
  | organisation (o : Organisation) (hid : db.organisations.get? o.id = none) :
      Registers db [] [.organisation o]
  | credential (o : Organisation) (c : OrganisationCredential)
      (hid : db.credentials.get? c.id = none) (horg : c.orgId = o.id) :
      Registers db [.organisation o] [.credential c]

/-- What a call has committed when it ends. -/
def Registered (r : Except AuthError AuthResult) (rows : List AuthRow) : Prop :=
  match r with
  | .ok _ => ∃ o c, rows = [.organisation o, .credential c]
  | .error _ => rows = []

section
variable {runtime : AuthRuntime}

/-- The predicate transformer of `register`. -/
abbrev registerRecall (runtime : AuthRuntime) (c : AuthCmd)
    (r : Recollection AuthDatabase AuthRow Env (List AuthRow))
    (K : Recollection AuthDatabase AuthRow Env (List AuthRow) →
      Except AuthError (c.Res AuthSql.Rows AuthExt.Res) → Prop) : Prop :=
  (authPostgres runtime).recall History.rows Interference.concurrent (registerOwn runtime)
    (fun rows _ t batch => Registers t.now rows batch) c r K

/-- A call of the runtime commits nothing. -/
theorem wp_authExt {e : AuthExt} {v : View AuthDatabase AuthRow Env} {rows : List AuthRow}
    {Q : Except AuthError e.Res → Recollection AuthDatabase AuthRow Env (List AuthRow) → Prop}
    (h : ∀ db env v', Lands runtime db env (.ext e) → Q (e.run runtime env) ⟨v', rows⟩) :
    Await.wp (registerRecall runtime) (Await.await (.ext e : AuthCmd)) ⟨v, rows⟩ Q := by
  intro t env _ hown
  refine ⟨fun hne => absurd rfl hne, ?_⟩
  show Q (e.run runtime env) ⟨_, rows ++ []⟩
  rw [List.append_nil]
  exact h t.now env _ hown.1

/-- A statement on the pool. It commits its rows, or fails. -/
theorem wp_authQuery {q : AuthSql} {v : View AuthDatabase AuthRow Env} {rows : List AuthRow}
    {Q : Except AuthError q.Rows → Recollection AuthDatabase AuthRow Env (List AuthRow) → Prop}
    (hok : ∀ db env batch ans v', Lands runtime db env (.pool q) → Owns db rows →
      q.exec env db = .ok (batch, ans) →
      (batch ≠ [] → Registers db rows batch) ∧ Q (.ok ans) ⟨v', rows ++ batch⟩)
    (herr : ∀ db env e v', Lands runtime db env (.pool q) → Owns db rows →
      (env.fault = true ∨ q.exec env db = .error e) → Q (.error e) ⟨v', rows⟩) :
    Await.wp (registerRecall runtime) (authQuery q) ⟨v, rows⟩ Q := by
  intro t env _ hown
  simp only [Engine.step, Engine.autocommit, authPostgres, History.rows]
  cases hf : env.fault with
  | true =>
      simp only [if_true, List.append_nil]
      exact ⟨fun hne => absurd rfl hne, herr t.now env _ _ hown.1 hown.2 (Or.inl hf)⟩
  | false =>
      simp only [Bool.false_eq_true, if_false]
      cases hx : q.exec env t.now with
      | error e =>
          simp only [List.append_nil]
          exact ⟨fun hne => absurd rfl hne, herr t.now env e _ hown.1 hown.2 (Or.inr hx)⟩
      | ok r => exact hok t.now env r.1 r.2 _ hown.1 hown.2 hx

/-- `findByEmail` commits nothing. -/
theorem wp_findByEmail {email : String} {v : View AuthDatabase AuthRow Env} {rows : List AuthRow}
    {Q : Except AuthError (Option OrganisationCredential) →
      Recollection AuthDatabase AuthRow Env (List AuthRow) → Prop}
    (hok : ∀ existing v', Q (.ok existing) ⟨v', rows⟩)
    (herr : ∀ e v', Q (.error e) ⟨v', rows⟩) :
    Await.wp (registerRecall runtime) (AuthRepository.findByEmail runtime email) ⟨v, rows⟩ Q := by
  rw [AuthRepository.findByEmail, Await.wp_bind]
  refine wp_authQuery (fun db env batch ans v' _ _ hx => ?_) fun _ _ e v' _ _ _ => herr e v'
  cases hx
  rw [List.append_nil]
  exact ⟨fun hne => absurd rfl hne, hok _ v'⟩

/-- The organisation is new, and the call owns it. -/
theorem wp_createOrganisation {input : CreateOrgInput} {v : View AuthDatabase AuthRow Env}
    {Q : Except AuthError Organisation →
      Recollection AuthDatabase AuthRow Env (List AuthRow) → Prop}
    (hok : ∀ o v', Q (.ok o) ⟨v', [.organisation o]⟩) (herr : ∀ e v', Q (.error e) ⟨v', []⟩) :
    Await.wp (registerRecall runtime) (OrganisationRepository.create input) ⟨v, []⟩ Q := by
  rw [OrganisationRepository.create, Await.wp_bind]
  refine wp_authQuery (fun db env batch ans v' _ _ hx => ?_) fun _ _ e v' _ _ _ => herr e v'
  obtain ⟨o, rfl, rfl, hid⟩ := AuthSql.insertOrganisation_ok hx
  exact ⟨fun _ => .organisation o hid, hok o v'⟩

/-- The credential of an organisation that the call owns. The `INSERT` does not fail. -/
theorem insertCredential_of_lands {input : CreateCredentialInput} {o : Organisation}
    {env : Env} {db : AuthDatabase} (h : Lands runtime db env (.pool (.insertCredential input)))
    (howns : Owns db [.organisation o]) (horg : input.orgId = o.id) :
    env.fault = false ∧ (AuthSql.insertCredential input).exec env db =
      .ok ([.credential (input.row env)], [input.row env]) := by
  obtain ⟨hfault, hid, hemail⟩ := h
  obtain ⟨hmem, hnone⟩ := howns o rfl
  have hkey : db.organisations.get? input.orgId = some o := by
    rw [horg]
    exact Table.get?_of_mem hmem
  refine ⟨hfault, AuthSql.insertCredential_of hid ?_ hemail (by rw [hkey]; rfl)⟩
  rw [horg]
  exact hnone

/-- `AuthRepository.create` commits the credential after its organisation, or
nothing. -/
theorem wp_createCredential {input : CreateCredentialInput} {o : Organisation}
    {v : View AuthDatabase AuthRow Env}
    {Q : Except AuthError OrganisationCredential →
      Recollection AuthDatabase AuthRow Env (List AuthRow) → Prop}
    (horg : input.orgId = o.id)
    (hok : ∀ c v', Q (.ok c) ⟨v', [.organisation o, .credential c]⟩) :
    Await.wp (registerRecall runtime) (AuthRepository.create runtime input)
      ⟨v, [.organisation o]⟩ Q := by
  rw [AuthRepository.create, Await.wp_bind]
  refine wp_authQuery (fun db env batch ans v' hlands howns hx => ?_)
    fun db env e v' hlands howns herr => ?_
  · -- Nobody else has a credential of an organisation that the call owns.
    rw [(insertCredential_of_lands hlands howns horg).2] at hx
    cases hx
    exact ⟨fun _ => .credential o _ hlands.2.1 horg, hok _ v'⟩
  · obtain ⟨hfault, hx⟩ := insertCredential_of_lands hlands howns horg
    rcases herr with h | h
    · rw [hfault] at h
      cases h
    · rw [hx] at h
      cases h

/-- A call commits its organisation and then its credential. If it fails, it has committed
nothing. -/
theorem register_spec (input : RegisterOrgInput) (v : View AuthDatabase AuthRow Env) :
    Await.wp (registerRecall runtime) (AuthService.register runtime input) ⟨v, []⟩
      fun r memory => Registered r memory.history := by
  rw [AuthService.register, Await.wp_bind]
  -- Until the `INSERT` of the organisation the call has committed nothing.
  refine wp_findByEmail (fun existing v₁ => ?_) fun _ _ => rfl
  dsimp only
  split
  · exact rfl
  rw [Await.wp_bind]
  refine wp_authExt fun _ env₂ v₂ _ => ?_
  cases AuthExt.run runtime (.hash input.password) env₂ with
  | error e => exact rfl
  | ok passwordHash =>
      dsimp only
      rw [Await.wp_bind]
      refine wp_createOrganisation (fun o v₃ => ?_) fun _ _ => rfl
      dsimp only
      rw [Await.wp_bind]
      refine wp_createCredential rfl fun c v₄ => ?_
      -- Both rows are committed, and `jwt.sign` does not throw.
      rw [AuthService.buildAuthResult, Await.wp_bind]
      refine wp_authExt fun _ env₅ v₅ hsign => ?_
      obtain ⟨token, htoken⟩ := Option.isSome_iff_exists.mp hsign
      simp only [AuthExt.run, htoken]
      exact ⟨o, c, rfl⟩

end

/-! ### Whole runs -/

/-- The runs of the registrations, with the rows that each call has committed. -/
abbrev AuthRuns (runtime : AuthRuntime)
    (ok : AuthWorld → (Nat → List AuthRow) → AuthStep → Prop) (db : AuthDatabase) :
    AuthWorld → (Nat → List AuthRow) → Prop :=
  HistoryRun (authPostgres runtime) (fun input => (AuthService.register runtime input).run)
    History.rows ok (World.start (.start db))

/-- No command of the step fails after the organisation of its call is stored. -/
def LandingStep (runtime : AuthRuntime) (w : AuthWorld) (_ : Nat → List AuthRow)
    (a : AuthStep) : Prop :=
  ∀ i env s c k, a = .step i env → w.sessions[i]? = some s → s.prog = .call c k →
    Lands runtime w.db env c

/-- Every organisation has one credential, or is the only row of one call so far. -/
structure Accounted (db : AuthDatabase) (rows : Nat → List AuthRow) : Prop where
  organisation : ∀ c ∈ db.credentials, ∃ o ∈ db.organisations, o.id = c.orgId
  unique : ∀ c ∈ db.credentials, ∀ c' ∈ db.credentials, c.orgId = c'.orgId → c = c'
  covered : ∀ o ∈ db.organisations,
    (∃ c ∈ db.credentials, c.orgId = o.id) ∨ ∃ i, rows i = [.organisation o]
  owns : ∀ i, Owns db (rows i)
  distinct : ∀ i j o o', rows i = [.organisation o] → rows j = [.organisation o'] →
    o.id = o'.id → i = j

namespace Accounted

variable {db : AuthDatabase} {rows : Nat → List AuthRow} {batch : List AuthRow} {i : Nat}

/-- A call commits a new organisation. -/
theorem insertOrganisation (h : Accounted db rows) {o : Organisation} (hi : rows i = [])
    (hid : db.organisations.get? o.id = none) :
    Accounted (db.write (.organisation o)) (Function.update rows i [.organisation o]) := by
  have hnew : ∀ o' ∈ db.organisations, o'.id ≠ o.id := by
    intro o' ho' he
    rw [← he, Table.get?_of_mem ho'] at hid
    cases hid
  -- A credential has its organisation, so the new one has none.
  have hnone : ∀ c ∈ db.credentials, c.orgId ≠ o.id := by
    intro c hc he
    obtain ⟨o', ho', hid'⟩ := h.organisation c hc
    exact hnew o' ho' (hid'.trans he)
  have hold : ∀ o' ∈ db.organisations, o' ∈ db.organisations.put o := fun o' ho' =>
    Table.mem_put.mpr (Or.inr ⟨ho', hnew o' ho'⟩)
  constructor
  · intro c hc
    obtain ⟨o', ho', hid'⟩ := h.organisation c hc
    exact ⟨o', hold o' ho', hid'⟩
  · exact h.unique
  · intro o' ho'
    rcases Table.mem_put.mp ho' with rfl | ⟨ho', -⟩
    · exact Or.inr ⟨i, Function.update_self i _ rows⟩
    · rcases h.covered o' ho' with hc | ⟨j, hj⟩
      · exact Or.inl hc
      · -- Another call, since this one has committed nothing yet.
        have hne : j ≠ i := by
          rintro rfl
          rw [hi] at hj
          cases hj
        exact Or.inr ⟨j, (Function.update_of_ne hne _ rows).trans hj⟩
  · intro j o' hj
    by_cases hji : j = i
    · subst hji
      rw [Function.update_self] at hj
      cases hj
      exact ⟨Table.mem_put.mpr (Or.inl rfl), hnone⟩
    · rw [Function.update_of_ne hji] at hj
      obtain ⟨ho', hnone'⟩ := h.owns j o' hj
      exact ⟨hold o' ho', hnone'⟩
  · -- Of two calls that own one organisation, at most one can be the call of this step.
    intro j j' o₁ o₂ hj hj' he
    by_cases hji : j = i <;> by_cases hji' : j' = i
    · rw [hji, hji']
    · rw [hji, Function.update_self] at hj
      rw [Function.update_of_ne hji'] at hj'
      cases hj
      exact absurd he.symm (hnew o₂ (h.owns j' o₂ hj').1)
    · rw [hji', Function.update_self] at hj'
      rw [Function.update_of_ne hji] at hj
      cases hj'
      exact absurd he (hnew o₁ (h.owns j o₁ hj).1)
    · rw [Function.update_of_ne hji] at hj
      rw [Function.update_of_ne hji'] at hj'
      exact h.distinct j j' o₁ o₂ hj hj' he

/-- A call commits the credential of the organisation that it owns. -/
theorem insertCredential (h : Accounted db rows) {o : Organisation} {c : OrganisationCredential}
    (hi : rows i = [.organisation o]) (hid : db.credentials.get? c.id = none)
    (horg : c.orgId = o.id) :
    Accounted (db.write (.credential c))
      (Function.update rows i ([.organisation o] ++ [.credential c])) := by
  obtain ⟨ho, hnone⟩ := h.owns i o hi
  have hnew : ∀ c' ∈ db.credentials, c'.id ≠ c.id := by
    intro c' hc' he
    rw [← he, Table.get?_of_mem hc'] at hid
    cases hid
  have hold : ∀ c' ∈ db.credentials, c' ∈ db.credentials.put c := fun c' hc' =>
    Table.mem_put.mpr (Or.inr ⟨hc', hnew c' hc'⟩)
  -- The call owns nothing any more.
  have hrows : ∀ j o', Function.update rows i ([.organisation o] ++ [.credential c]) j =
      [.organisation o'] → j ≠ i ∧ rows j = [.organisation o'] := by
    intro j o' hj
    by_cases hji : j = i
    · subst hji
      rw [Function.update_self] at hj
      cases hj
    · rw [Function.update_of_ne hji] at hj
      exact ⟨hji, hj⟩
  constructor
  · intro c' hc'
    rcases Table.mem_put.mp hc' with rfl | ⟨hc', -⟩
    · exact ⟨o, ho, horg.symm⟩
    · exact h.organisation c' hc'
  · intro c₁ hc₁ c₂ hc₂ he
    rcases Table.mem_put.mp hc₁ with h₁ | ⟨h₁, -⟩ <;>
      rcases Table.mem_put.mp hc₂ with h₂ | ⟨h₂, -⟩
    · rw [h₁, h₂]
    · -- The organisation of the new credential had none.
      rw [h₁] at he
      exact absurd (he.symm.trans horg) (hnone c₂ h₂)
    · rw [h₂] at he
      exact absurd (he.trans horg) (hnone c₁ h₁)
    · exact h.unique c₁ h₁ c₂ h₂ he
  · intro o' ho'
    rcases h.covered o' ho' with ⟨c', hc', he⟩ | ⟨j, hj⟩
    · exact Or.inl ⟨c', hold c' hc', he⟩
    · by_cases hji : j = i
      · -- The organisation of this call has its credential now.
        subst hji
        rw [hi] at hj
        cases hj
        exact Or.inl ⟨c, Table.mem_put.mpr (Or.inl rfl), horg⟩
      · exact Or.inr ⟨j, (Function.update_of_ne hji _ rows).trans hj⟩
  · intro j o' hj
    obtain ⟨hji, hrow⟩ := hrows j o' hj
    obtain ⟨ho', hnone'⟩ := h.owns j o' hrow
    refine ⟨ho', fun c' hc' => ?_⟩
    rcases Table.mem_put.mp hc' with hnew' | ⟨hold', -⟩
    · rw [hnew', horg]
      exact fun he => hji (h.distinct j i o' o hrow hi he.symm)
    · exact hnone' c' hold'
  · intro j j' o₁ o₂ hj hj' he
    exact h.distinct j j' o₁ o₂ (hrows j o₁ hj).2 (hrows j' o₂ hj').2 he

/-- Every commit of a call keeps the account. -/
theorem registers (h : Accounted db rows) (hb : Registers db (rows i) batch) :
    Accounted (writeAll db batch) (Function.update rows i (rows i ++ batch)) := by
  generalize hi : rows i = before at hb
  cases hb with
  | organisation o hid => exact h.insertOrganisation hi hid
  | credential o c hid horg => exact h.insertCredential hi hid horg

end Accounted

/-- Before the first call. -/
theorem AuthDatabase.OneToOne.accounted {db : AuthDatabase} (h : db.OneToOne) :
    Accounted db fun _ => [] where
  organisation := h.organisation
  unique := by
    intro c hc c' hc' he
    obtain ⟨o, ho, hid⟩ := h.organisation c hc
    obtain ⟨c₀, -, honly⟩ := h.credential o ho
    exact (honly c ⟨hc, hid.symm⟩).trans (honly c' ⟨hc', he.symm.trans hid.symm⟩).symm
  covered := by
    intro o ho
    obtain ⟨c, ⟨hc, hid⟩, -⟩ := h.credential o ho
    exact Or.inl ⟨c, hc, hid⟩
  owns _ _ he := by cases he
  distinct _ _ _ _ he := by cases he

/-- When no call owns an organisation, every organisation has its credential. -/
theorem Accounted.oneToOne {db : AuthDatabase} {rows : Nat → List AuthRow}
    (h : Accounted db rows) (hnone : ∀ i o, rows i ≠ [.organisation o]) : db.OneToOne where
  credential := by
    intro o ho
    rcases h.covered o ho with ⟨c, hc, hid⟩ | ⟨i, hi⟩
    · exact ⟨c, ⟨hc, hid⟩, fun c' hc' => h.unique c' hc'.1 c hc (hc'.2.trans hid.symm)⟩
    · exact absurd hi (hnone i o)
  organisation := h.organisation

section
variable {runtime : AuthRuntime} {db : AuthDatabase} {w w' : AuthWorld}
  {rows : Nat → List AuthRow}

/-- One step keeps the account. -/
theorem Accounted.step (h : Accounted w.db rows) {a : AuthStep}
    (hstep : w.step (authPostgres runtime)
      (fun input => (AuthService.register runtime input).run) a = some w')
    (hguar : w.Guarantees (authPostgres runtime)
      (fun _ _ rows _ t batch => Registers t.now rows batch) rows a) :
    Accounted w'.db (w.record (authPostgres runtime) History.rows rows a) := by
  rcases World.step_cases hstep with ⟨c, rfl, rfl⟩ | ⟨i, env, s, c, k, rfl, hi, hk, hb, -, rfl⟩
  · exact h
  · rw [World.record_step hi hk]
    show Accounted (w.timeline.publish _).now (Function.update rows i (rows i ++ _))
    rw [← hb]
    cases hbatch : w.batch (authPostgres runtime) i env with
    | nil =>
        -- Nothing is committed, and the rows of the call stay as they are.
        rw [List.append_nil, Function.update_eq_self]
        exact h
    | cons r batch =>
        have hregisters := hguar i env s rfl hi (by rw [hbatch]; exact List.cons_ne_nil r batch)
        rw [hbatch] at hregisters
        exact h.registers hregisters

/-- Every call of a run of landing steps is at a point of its program where its triple holds. -/
theorem accounted_of_run (hdb : db.OneToOne)
    (h : AuthRuns runtime (LandingStep runtime) db w rows) :
    Accounted w.db rows ∧
      w.Recalls (authPostgres runtime) History.rows Interference.concurrent
        (registerOwn runtime) (fun _ _ rows _ t batch => Registers t.now rows batch)
        (fun _ _ r memory => Registered r memory.history) rows := by
  refine HistoryRun.sound (J := fun w rows => Accounted w.db rows)
    Interference.concurrent_shared ?_ ?_ ?_ ?_ h
  · intro _ _ input _ t
    exact register_spec input _
  · exact hdb.accounted
  · intro w rows i env s c k haccount hlands hi hk
    exact ⟨hlands i env s c k rfl hi hk, haccount.owns i⟩
  · intro w rows a w' _ haccount _ hstep hguar
    exact haccount.step hstep hguar

/-- In every run of landing steps the tables correspond whenever no call is in progress, and a
call that is rejected has committed no row. -/
theorem oneToOne_of_run (hdb : db.OneToOne)
    (h : AuthRuns runtime (LandingStep runtime) db w rows) :
    (w.quiescent = true → w.db.OneToOne) ∧
      ∀ i s e, w.sessions[i]? = some s → s.prog = .ret (.error e) → rows i = [] := by
  obtain ⟨haccount, hrecalls⟩ := accounted_of_run hdb h
  constructor
  · intro hquiescent
    refine haccount.oneToOne fun i o howns => ?_
    cases hi : w.sessions[i]? with
    | none =>
        rw [h.fresh hi] at howns
        cases howns
    | some s =>
        have hfinished := List.all_eq_true.mp hquiescent s (List.mem_of_getElem? hi)
        cases hk : s.prog with
        | call c k =>
            rw [hk] at hfinished
            cases hfinished
        | ret r =>
            -- A call that has ended has committed nothing or both rows.
            obtain ⟨t, -, hr⟩ := hrecalls.ended hi hk
            cases r with
            | ok a =>
                obtain ⟨o', c, hrows⟩ := hr
                rw [howns] at hrows
                cases hrows
            | error e =>
                rw [show rows i = [] from hr] at howns
                cases howns
  · intro i s e hi hk
    obtain ⟨t, -, hr⟩ := hrecalls.ended hi hk
    exact hr

end

/-! ### Sample runs -/

/-- Whether a command lands depends on the row, the email and the token only, so it can
be decided. -/
instance (runtime : AuthRuntime) (db : AuthDatabase) (env : Env) (c : AuthCmd) :
    Decidable (Lands runtime db env c) :=
  match c with
  | .pool (.insertCredential input) => inferInstanceAs (Decidable
      (env.fault = false ∧ db.credentials.get? env.uuid = none ∧
        ∀ c ∈ db.credentials.rows, c.email ≠ input.email))
  | .ext (.sign payload) => inferInstanceAs (Decidable
      ((runtime.jwtSign payload runtime.jwtSecret runtime.jwtExpiresIn env.now).isSome = true))
  | .pool (.selectActiveByEmail _) | .pool (.insertOrganisation _) | .ext (.hash _)
  | .client _ | .begin | .commit | .rollback => .isTrue trivial

/-- The check of `LandingStep`. -/
def landingCheck (runtime : AuthRuntime) (w : AuthWorld) (_ : Nat → List AuthRow) :
    AuthStep → Bool
  | .spawn _ => true
  | .step i env => (w.sessions[i]?).all fun s =>
    match s.prog with
    | .ret _ => true
    | .call c _ => decide (Lands runtime w.db env c)

/-- A step that passes `landingCheck` meets `LandingStep`. -/
theorem landingStep_of_check {runtime : AuthRuntime} (w : AuthWorld) (rows : Nat → List AuthRow)
    (a : AuthStep) (h : landingCheck runtime w rows a = true) : LandingStep runtime w rows a := by
  rintro i env s c k rfl hi hk
  simpa [landingCheck, hi, hk] using h

/-- A runtime with one hash and one token. -/
def sampleRuntime : AuthRuntime :=
  { toLowerCase := toLowerCase
    bcryptHash := fun _ _ _ => "$2a$12$"
    jwtSign := fun _ _ _ _ => some "token"
    bcryptRounds := 12
    jwtSecret := "secret"
    jwtExpiresIn := "8h" }

/-- No organisation is registered. -/
def emptyAuthDb : AuthDatabase := ⟨Table.empty, Table.empty⟩

/-- Without rows, organisations and credentials are one to one. -/
theorem oneToOne_emptyAuthDb : emptyAuthDb.OneToOne :=
  ⟨fun o ho => absurd ho (Table.not_mem_empty o), fun c hc => absurd hc (Table.not_mem_empty c)⟩

/-- A registration of a supplier with the given email. -/
def sampleRegistration (email : String) : RegisterOrgInput :=
  { legalName := "Supplier"
    gstin := none
    role := .supplier
    email := email
    password := "secret" }

/-- `n` steps of the session `i`, whose rows get the id `uuid`. -/
def authSteps (uuid : Uuid) (i n : Nat) : List AuthStep :=
  List.replicate n (.step i { sampleEnv with uuid := uuid })

/-- The world and the rows after a list of steps, when each passes the check `p`. -/
def authPlay (p : AuthWorld → (Nat → List AuthRow) → AuthStep → Bool) (as : List AuthStep) :
    Option (AuthWorld × (Nat → List AuthRow)) :=
  World.execRecorded (authPostgres sampleRuntime)
    (fun input => (AuthService.register sampleRuntime input).run) History.rows p
    (World.start (.start emptyAuthDb)) (fun _ => []) as

/-- The call `i` has been rejected. -/
def AuthWorld.rejected (w : AuthWorld) (i : Nat) : Bool :=
  (w.sessions[i]?).any fun s =>
    match s.prog with
    | .ret (.error _) => true
    | _ => false

/-- A rejected registration has ended with an error. -/
theorem AuthWorld.rejected_of {w : AuthWorld} {i : Nat} (h : w.rejected i = true) :
    ∃ s e, w.sessions[i]? = some s ∧ s.prog = .ret (.error e) := by
  rw [AuthWorld.rejected] at h
  cases hi : w.sessions[i]? with
  | none =>
      rw [hi] at h
      cases h
  | some s =>
      rw [hi, Option.any_some] at h
      split at h
      · rename_i e hk
        exact ⟨s, e, rfl, hk⟩
      · cases h

/-- Two registrations, one after the other. -/
theorem oneToOne_of_two_registrations : ∃ (w : AuthWorld) (rows : Nat → List AuthRow),
    AuthRuns sampleRuntime (LandingStep sampleRuntime) emptyAuthDb w rows ∧
      w.quiescent = true ∧ w.db.organisations.rows.length = 2 ∧ w.db.OneToOne := by
  have h : (authPlay (landingCheck sampleRuntime)
      (.spawn (sampleRegistration "a@vse.in") :: authSteps sampleSupplier 0 5 ++
        .spawn (sampleRegistration "b@vse.in") :: authSteps sampleBuyer 1 5)).map
      (fun r => (r.1.quiescent, r.1.db.organisations.rows.length)) = some (true, 2) := by
    decide +kernel
  obtain ⟨⟨w, rows⟩, hw, hl⟩ := Option.map_eq_some_iff.mp h
  simp only [Prod.mk.injEq] at hl
  have hrun : AuthRuns sampleRuntime (LandingStep sampleRuntime) emptyAuthDb w rows :=
    HistoryRun.of_exec landingStep_of_check .refl hw
  exact ⟨w, rows, hrun, hl.1, hl.2, (oneToOne_of_run oneToOne_emptyAuthDb hrun).1 hl.1⟩

/-- Two concurrent registrations of one email, up to case and spaces: the second one is
rejected, and leaves an organisation without a credential. -/
theorem two_registrations_of_one_email : ∃ (w : AuthWorld) (rows : Nat → List AuthRow),
    AuthRuns sampleRuntime (fun _ _ _ => True) emptyAuthDb w rows ∧ w.quiescent = true ∧
      ¬ w.db.OneToOne ∧
      ∃ i s e, w.sessions[i]? = some s ∧ s.prog = .ret (.error e) ∧ rows i ≠ [] := by
  have h : (authPlay (fun _ _ _ => true)
      (.spawn (sampleRegistration "a@vse.in") :: .spawn (sampleRegistration " A@vse.in") ::
        authSteps sampleSupplier 0 1 ++ authSteps sampleBuyer 1 1 ++
        authSteps sampleSupplier 0 4 ++ authSteps sampleBuyer 1 3)).map
      (fun r => (r.1.quiescent, r.1.db.organisations.rows.map Organisation.id,
        r.1.db.credentials.rows.map OrganisationCredential.orgId, (r.2 1).isEmpty,
        AuthWorld.rejected r.1 1)) =
      some (true, [sampleSupplier, sampleBuyer], [sampleSupplier], false, true) := by
    decide +kernel
  obtain ⟨⟨w, rows⟩, hw, hl⟩ := Option.map_eq_some_iff.mp h
  simp only [Prod.mk.injEq] at hl
  obtain ⟨hquiescent, horganisations, hcredentials, hrows, hend⟩ := hl
  refine ⟨w, rows, HistoryRun.of_exec (fun _ _ _ _ => trivial) .refl hw, hquiescent, ?_, ?_⟩
  · -- The second organisation has no credential.
    intro hone
    have hmem : sampleBuyer ∈ w.db.organisations.rows.map Organisation.id := by
      rw [horganisations]
      decide
    obtain ⟨o, ho, hid⟩ := List.mem_map.mp hmem
    obtain ⟨c, ⟨hc, horg⟩, -⟩ := hone.credential o ho
    have hmem' : sampleBuyer ∈ w.db.credentials.rows.map OrganisationCredential.orgId :=
      List.mem_map.mpr ⟨c, hc, horg.trans hid⟩
    rw [hcredentials] at hmem'
    exact absurd hmem' (by decide)
  · obtain ⟨s, e, hs, hk⟩ := AuthWorld.rejected_of hend
    refine ⟨1, s, e, hs, hk, fun hnil => ?_⟩
    rw [hnil] at hrows
    cases hrows

end Vanguard
