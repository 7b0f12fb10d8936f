import Vanguard.Library.Discipline
import Vanguard.Library.Lookup
import Vanguard.Proofs.Registration
import Vanguard.Services.Login

/-!
# `Vanguard.Proofs.Logins`: what the registrations and logins answer

The calls of the account service keep their discipline, whatever the others do.

* `step_login` and `takes_liftAuth`: a program of `register` does in the service what it does on
  its own.
* `AccountConduct` is what a call sends after what it has sent before: a credential only for an
  organisation that it has committed itself.
* `AccountRefusal` and `AccountReplied` are the tables of the answers: every error has its reason,
  and every reply its rows.
* `AccountCall.obeys`: the program of every routed call keeps to them.
-/

set_option autoImplicit false

namespace Vanguard

open ReadCommitted

/-! ### The programs of `register` in the service -/

section
variable {runtime : LoginRuntime}

/-- An error of the registrations goes to the logins and back. -/
theorem ofCommand_auth {α : Type} (r : Except AuthError α) :
    (r.mapError LoginError.auth).mapError LoginError.ofCommand = r := by
  cases r <;> rfl

/-- Both models fail at the same moments, with the same error. -/
theorem fault_login (runtime : LoginRuntime) (env : Env) :
    (accountPostgres runtime).fault env =
      ((authPostgres runtime.toAuthRuntime).fault env).map LoginError.auth := by
  simp only [accountPostgres, authPostgres]
  split <;> rfl

/-- Both models execute a statement in the same way. -/
theorem exec_login (runtime : LoginRuntime) (q : AuthSql) (start env : Env) (db : AuthDatabase) :
    (accountPostgres runtime).exec (.auth q) start env db =
      ((authPostgres runtime.toAuthRuntime).exec q start env db).mapError .auth := rfl

/-- A statement of `register` outside a transaction does the same in the service. -/
theorem autocommit_login (runtime : LoginRuntime) (q : AuthSql) (env : Env) (db : AuthDatabase)
    (tx : Tx Env AuthRow) :
    let o := (authPostgres runtime.toAuthRuntime).autocommit q env db tx
    let o' := (accountPostgres runtime).autocommit (.auth q) env db tx
    o'.publish = o.publish ∧ o'.tx = o.tx ∧
      o'.answer.mapError LoginError.ofCommand = o.answer := by
  simp only [Engine.autocommit, fault_login]
  cases (authPostgres runtime.toAuthRuntime).fault env with
  | some e => exact ⟨rfl, rfl, rfl⟩
  | none =>
      simp only [Option.map_none, exec_login]
      cases (authPostgres runtime.toAuthRuntime).exec q env env db with
      | error e => exact ⟨rfl, rfl, rfl⟩
      | ok r => exact ⟨rfl, rfl, rfl⟩

/-- A command of `register` does in the service what it does on its own. -/
theorem step_login (runtime : LoginRuntime) (c : AuthCmd) (env : Env) (db : AuthDatabase)
    (tx : Tx Env AuthRow) :
    let o := (authPostgres runtime.toAuthRuntime).step c env db tx
    let o' := (accountPostgres runtime).step (AuthCmd.login c) env db tx
    o'.publish = o.publish ∧ o'.tx = o.tx ∧ AuthCmd.answer c o'.answer = o.answer := by
  cases c with
  | begin | commit =>
      simp only [Engine.step, AuthCmd.login, fault_login]
      cases (authPostgres runtime.toAuthRuntime).fault env with
      | some e => exact ⟨rfl, rfl, rfl⟩
      | none => cases tx <;> exact ⟨rfl, rfl, rfl⟩
  | rollback =>
      simp only [Engine.step, AuthCmd.login, fault_login]
      cases (authPostgres runtime.toAuthRuntime).fault env with
      | some e => exact ⟨rfl, rfl, rfl⟩
      | none => exact ⟨rfl, rfl, rfl⟩
  | client q =>
      cases tx with
      | idle => exact autocommit_login runtime q env db .idle
      | failed => exact ⟨rfl, rfl, rfl⟩
      | active start ws =>
          simp only [Engine.step, AuthCmd.login, fault_login]
          cases (authPostgres runtime.toAuthRuntime).fault env with
          | some e => exact ⟨rfl, rfl, rfl⟩
          | none =>
              simp only [Option.map_none, exec_login]
              cases (authPostgres runtime.toAuthRuntime).exec q start env (writeAll db ws) with
              | error e => exact ⟨rfl, rfl, rfl⟩
              | ok r => exact ⟨rfl, rfl, rfl⟩
  | pool q => exact autocommit_login runtime q env db tx
  | ext e => exact ⟨rfl, rfl, ofCommand_auth _⟩

/-- A trace of a call. -/
abbrev AccountTrace := Trace AuthDatabase AuthRow Env

/-- The triple of a lifted program is the one of the program. -/
theorem takes_liftAuth {α : Type} {allowed : LoginCmd → AccountTrace → Prop} {p : AuthAsync α}
    {tr : AccountTrace} {Q : α → AccountTrace → Prop} {P : LoginError → AccountTrace → Prop}
    (h : Takes (authPostgres runtime.toAuthRuntime) (fun c => allowed (AuthCmd.login c)) p tr Q
      fun e => P (.auth e)) :
    Takes (accountPostgres runtime) allowed (liftAuth p) tr Q P := by
  unfold Takes liftAuth Await.wp
  simp only [ExceptT.run_mk]
  rw [Prog.wp_bind, Prog.wp_lift]
  -- The transformer of the service, through the lifted commands, allows for the one of `register`.
  have h : p.run.wp (fun c tr K => (accountPostgres runtime).tracing allowed (AuthCmd.login c) tr
      fun tr' r => K tr' (AuthCmd.answer c r)) tr
      (Resolves Q fun e => P (.auth e)) := by
    refine Prog.wp_imp (fun c tr K K' hK h => ?_) (fun c tr K h => ⟨h.1, fun env db => ?_⟩) h
    · exact tracing_mono _ _ _ _ (fun tr' r hr => hK tr' _ hr) h
    · obtain ⟨hpublish, htx, hanswer⟩ := step_login runtime c env db tr.tx
      have hk := h.2 env db
      simp only [Trace.next] at hk ⊢
      rw [hpublish, htx, hanswer]
      exact hk
  refine Prog.wp_mono (fun c tr K K' hK h => ?_) h fun r tr' hr => ?_
  · exact tracing_mono _ _ _ _ (fun tr' r hr => hK tr' _ hr) h
  · cases r with
    | ok a => exact hr
    | error e => exact hr

/-- What idles in the model of the registrations idles in that of the logins. -/
theorem idles_liftAuth {α : Type} {allowed : LoginCmd → AccountTrace → Prop} {p : AuthAsync α}
    {seen : List AuthDatabase} {done : List (List AuthRow)} {Q : α → AccountTrace → Prop}
    {P : LoginError → AccountTrace → Prop}
    (h : Idles (authPostgres runtime.toAuthRuntime) (fun c => allowed (AuthCmd.login c)) p seen
      done Q fun e => P (.auth e)) :
    Idles (accountPostgres runtime) allowed (liftAuth p) seen done Q P :=
  takes_liftAuth h

end

/-! ### The conduct and the answers of a call -/

/-- A call that the routes can make: `RegisterSchema` has no role `platform_admin`. -/
def AccountCall.Routed : AccountCall → Prop
  | .register input => input.role ≠ .platformAdmin
  | .login _ _ | .recordLogin _ => True

/-- What a call may send after what it has done. All statements are on the pool, and a
credential is inserted for an organisation of the same call. -/
def AccountConduct : LoginCmd → AccountTrace → Prop
  | .pool (.auth (.insertCredential input)), tr =>
    input.role ≠ .platformAdmin ∧ tr.Did fun rows => ∃ o : Organisation,
      rows = [.organisation o] ∧ o.id = input.orgId ∧ o.orgType = input.role.orgType
  | .pool _, _ | .ext _, _ => True
  | .begin, _ | .commit, _ | .rollback, _ | .client _, _ => False

/-- The rows of the registration `input`. -/
structure RegisterOrgInput.Stores (runtime : LoginRuntime) (input : RegisterOrgInput)
    (o : Organisation) (c : OrganisationCredential) : Prop where
  legalName : o.legalName = input.legalName
  orgType : o.orgType = input.role.orgType
  orgId : c.orgId = o.id
  email : c.email = runtime.normalise input.email
  passwordHash : ∃ salt, c.passwordHash =
    runtime.bcryptHash input.password runtime.bcryptRounds salt
  role : c.role = input.role
  isActive : c.isActive = true

/-- The result is about the credential `c`, and its token is signed for it and `email`. -/
structure AuthResult.About (runtime : LoginRuntime) (r : AuthResult) (c : OrganisationCredential)
    (email legalName : String) : Prop where
  organisationId : r.organisationId = c.orgId
  legalName : r.legalName = legalName
  role : r.role = c.role
  expiresIn : r.expiresIn = runtime.jwtExpiresIn
  token : ∃ now, runtime.jwtSign ⟨c.orgId, email, c.role, c.orgId⟩ runtime.jwtSecret
    runtime.jwtExpiresIn now = some r.token

/-- The active credential of an email. -/
structure AuthDatabase.Active (db : AuthDatabase) (runtime : LoginRuntime) (email : String)
    (c : OrganisationCredential) : Prop where
  stored : c ∈ db.credentials
  email : c.email = runtime.normalise email
  isActive : c.isActive = true

/-- The constraints on the ids that the database generates in a registration. -/
def generatedIdErrors : List PgError :=
  [.uniqueViolation "organisations_pkey", .uniqueViolation "organisation_credentials_pkey",
    .uniqueViolation "organisation_credentials_org_id_key",
    .foreignKeyViolation "organisation_credentials" "organisation_credentials_org_id_fkey"]

/-- Why a call throws. `saw p` says that the call has seen a database as `p` says. -/
inductive AccountRefusal (runtime : LoginRuntime) (saw : (AuthDatabase → Prop) → Prop) :
    AccountCall → LoginError → Prop where
  | connection (call : AccountCall) :
      AccountRefusal runtime saw call (.auth (.pg .connectionFailure))
  | bcrypt (call : AccountCall) : AccountRefusal runtime saw call (.auth .bcrypt)
  | jwt (call : AccountCall) (p : TokenPayload) (now : Timestamp)
      (h : runtime.jwtSign p runtime.jwtSecret runtime.jwtExpiresIn now = none) :
      AccountRefusal runtime saw call (.auth .jwt)
  | emailTaken {input : RegisterOrgInput}
      (h : saw fun db : AuthDatabase => ∃ c, db.Active runtime input.email c) :
      AccountRefusal runtime saw (.register input)
        (.auth (.error ("Email " ++ input.email ++ " is already registered")))
  | gstinLong {input : RegisterOrgInput} (g : String) (h : input.gstin = some g)
      (hlong : varchar 15 g = none) :
      AccountRefusal runtime saw (.register input) (.auth .stringDataRightTruncation)
  | gstinTaken {input : RegisterOrgInput} (g g' : String) (hinput : input.gstin = some g)
      (hcolumn : varchar 15 g = some g')
      (h : saw fun db : AuthDatabase => ∃ o ∈ db.organisations, o.gstin = some g') :
      AccountRefusal runtime saw (.register input)
        (.auth (.pg (.uniqueViolation "organisations_gstin_key")))
  | emailKey {input : RegisterOrgInput}
      (h : saw fun db : AuthDatabase => ∃ c ∈ db.credentials,
        c.email = runtime.normalise input.email) :
      AccountRefusal runtime saw (.register input)
        (.auth (.pg (.uniqueViolation "organisation_credentials_email_key")))
  | generatedId {input : RegisterOrgInput} (e : PgError) (h : e ∈ generatedIdErrors) :
      AccountRefusal runtime saw (.register input) (.auth (.pg e))
  | unknownEmail {email password : String}
      (h : saw fun db : AuthDatabase => ∀ c, ¬ db.Active runtime email c) :
      AccountRefusal runtime saw (.login email password) .invalidCredentials
  | wrongPassword {email password : String} (c : OrganisationCredential)
      (h : saw fun db : AuthDatabase => db.Active runtime email c)
      (hpassword : runtime.bcryptCompare password c.passwordHash = false) :
      AccountRefusal runtime saw (.login email password) .invalidCredentials

/-- What a call replies, by the batches that it has committed and by two databases that it has
seen one after the other. -/
inductive AccountReplied (runtime : LoginRuntime)
    (sawThen : (AuthDatabase → AuthDatabase → Prop) → Prop)
    (did : (List AuthRow → Prop) → Prop) : AccountCall → Option AuthResult → Prop where
  | registered {input : RegisterOrgInput} (o : Organisation) (c : OrganisationCredential)
      (r : AuthResult) (ho : did fun rows => rows = [.organisation o])
      (hc : did fun rows => rows = [.credential c]) (hstores : input.Stores runtime o c)
      (hr : r.About runtime c input.email o.legalName) :
      AccountReplied runtime sawThen did (.register input) (some r)
  | loggedIn {email password : String} (r : AuthResult)
      (h : sawThen fun db db' => ∃ c, db.Active runtime email c ∧
        runtime.bcryptCompare password c.passwordHash = true ∧
        r.About runtime c c.email
          (((db'.organisations.get? c.orgId).map Organisation.legalName).getD "")) :
      AccountReplied runtime sawThen did (.login email password) (some r)
  | recorded (orgId : Uuid) : AccountReplied runtime sawThen did (.recordLogin orgId) none

/-- What a call may answer after what it has done. -/
def AccountCall.answers (runtime : LoginRuntime) (call : AccountCall) :
    Except LoginError (Option AuthResult) → AccountTrace → Prop
  | .ok b, tr => AccountReplied runtime tr.SawThen tr.Did call b
  | .error e, tr => AccountRefusal runtime tr.Saw call e

/-! ### The programs -/

section
variable {runtime : LoginRuntime} {call : AccountCall} {seen : List AuthDatabase}
  {done : List (List AuthRow)}

/-- What a call throws after what it has done. -/
abbrev refusesAccount (runtime : LoginRuntime) (call : AccountCall) (e : LoginError)
    (tr : AccountTrace) : Prop :=
  AccountRefusal runtime tr.Saw call e

/-- A failed connection is a refusal every call may give. -/
instance : Bears (accountPostgres runtime) (refusesAccount runtime call) where
  fault := by
    intro env e h tr
    simp only [accountPostgres] at h
    split at h
    · cases h
      exact .connection call
    · cases h

/-- The same for the functions shared with the registrations. -/
instance : Bears (authPostgres runtime.toAuthRuntime)
    (fun e => refusesAccount runtime call (.auth e)) where
  fault := by
    intro env e h tr
    simp only [authPostgres] at h
    split at h
    · cases h
      exact .connection call
    · cases h

/-- The triple of a program of `register`. -/
abbrev AuthIdles {α : Type} (runtime : LoginRuntime) (call : AccountCall) (p : AuthAsync α)
    (seen : List AuthDatabase) (done : List (List AuthRow)) (Q : α → AccountTrace → Prop) : Prop :=
  Idles (authPostgres runtime.toAuthRuntime) (fun c => AccountConduct (AuthCmd.login c)) p seen
    done Q fun e => refusesAccount runtime call (.auth e)

/-- What `findByEmail` finds. -/
theorem find_credential (runtime : LoginRuntime) (email : String) (db : AuthDatabase)
    {o : Option OrganisationCredential}
    (h : db.credentials.rows.find? (fun c => c.email == runtime.normalise email && c.isActive) =
      o) :
    (∃ c, o = some c ∧ db.Active runtime email c) ∨
      (o = none ∧ ∀ c, ¬ db.Active runtime email c) := by
  cases o with
  | some c =>
      have hc := List.find?_some h
      simp only [Bool.and_eq_true, beq_iff_eq] at hc
      exact Or.inl ⟨c, rfl, List.mem_of_find?_eq_some h, hc.1, hc.2⟩
  | none =>
      refine Or.inr ⟨rfl, fun c hc => ?_⟩
      have := List.find?_eq_none.mp h c hc.stored
      simp [hc.email, hc.isActive] at this

/-- `findByEmail` finds the active credential of the email, or there is none. -/
theorem idles_findByEmail {email : String} {Q : Option OrganisationCredential → AccountTrace → Prop}
    (hsome : ∀ db c, db.Active runtime email c → Q (some c) ⟨seen ++ [db], done, .idle⟩)
    (hnone : ∀ db, (∀ c, ¬ db.Active runtime email c) → Q none ⟨seen ++ [db], done, .idle⟩) :
    AuthIdles runtime call (AuthRepository.findByEmail runtime.toAuthRuntime email) seen done
      Q := by
  refine Idles.bind (Idles.pool trivial (fun env db e he => nomatch he)
    fun env db rows b hx => Idles.pure ?_)
  obtain rfl : _ = rows := congrArg Prod.fst (Except.ok.inj hx)
  obtain rfl : _ = b := congrArg Prod.snd (Except.ok.inj hx)
  rw [Option.head?_toList]
  obtain ⟨c, hfound, hc⟩ | ⟨hfound, hno⟩ := find_credential runtime email db rfl
  · rw [hfound]
    exact hsome db c hc
  · rw [hfound]
    exact hnone db hno

/-- `buildAuthResult` answers about the credential it is given. -/
theorem idles_buildAuthResult {c : OrganisationCredential} {orgId : Uuid} {role : OrgRole}
    {email legalName : String} {Q : AuthResult → AccountTrace → Prop} (horg : orgId = c.orgId)
    (hrole : role = c.role)
    (h : ∀ db r, r.About runtime c email legalName → Q r ⟨seen ++ [db], done, .idle⟩) :
    AuthIdles runtime call
      (AuthService.buildAuthResult runtime.toAuthRuntime orgId email role legalName) seen done
      Q := by
  subst horg hrole
  refine Idles.bind (Idles.ext trivial (fun env db e he => ?_) fun env db token hx =>
    Idles.pure ?_)
  · simp only [authPostgres, AuthExt.run] at he
    split at he
    · cases he
    · rename_i hsign
      cases he
      exact .jwt call _ env.now hsign
  · simp only [authPostgres, AuthExt.run] at hx
    split at hx
    · rename_i token' hsign
      cases hx
      exact h db _ ⟨rfl, rfl, rfl, rfl, env.now, hsign⟩
    · cases hx

/-- The rows that `INSERT INTO organisations` writes and answers. -/
theorem AuthSql.insertOrganisation_row {input : CreateOrgInput} {env : Env} {db : AuthDatabase}
    {rows : List AuthRow} {b : List Organisation}
    (h : (AuthSql.insertOrganisation input).exec env db = .ok (rows, b)) :
    ∃ o, rows = [.organisation o] ∧ b = [o] ∧ db.organisations.get? o.id = none ∧
      o.legalName = input.legalName ∧ o.orgType = input.orgType := by
  obtain ⟨gstin, -, h⟩ := except_bind_ok h
  obtain ⟨_, hid, h⟩ := except_bind_ok h
  obtain ⟨_, -, h⟩ := except_bind_ok h
  cases h
  exact ⟨_, rfl, rfl, Option.isNone_iff_eq_none.mp (requireAuth_ok hid), rfl, rfl⟩

/-- A sequence of constraints that fails fails at the first one or after it. -/
theorem requireAuth_bind_error {α : Type} {p : Bool} {e : PgError} {f : Unit → Except AuthError α}
    {e' : AuthError} (h : (requireAuth p e >>= f) = .error e') :
    (p = false ∧ e' = .pg e) ∨ f () = .error e' := by
  cases p with
  | true => exact Or.inr h
  | false =>
      cases h
      exact Or.inl ⟨rfl, rfl⟩

/-- A GSTIN in the column is one of the input that is not too long. -/
theorem gstinColumn_some {gstin : Option String} {g' : String}
    (h : gstinColumn gstin = .ok (some g')) : ∃ g, gstin = some g ∧ varchar 15 g = some g' := by
  cases gstin with
  | none => cases h
  | some g =>
      simp only [gstinColumn] at h
      split at h
      · rename_i hg
        cases h
        exact ⟨g, rfl, hg⟩
      · cases h

/-- The column refuses only a GSTIN that is too long. -/
theorem gstinColumn_error {gstin : Option String} {e : AuthError}
    (h : gstinColumn gstin = .error e) :
    ∃ g, gstin = some g ∧ varchar 15 g = none ∧ e = .stringDataRightTruncation := by
  cases gstin with
  | none => cases h
  | some g =>
      simp only [gstinColumn] at h
      split at h
      · cases h
      · rename_i hlong
        cases h
        exact ⟨g, rfl, hlong, rfl⟩

/-- Why `INSERT INTO organisations` fails. -/
theorem AuthSql.insertOrganisation_error {input : CreateOrgInput} {env : Env} {db : AuthDatabase}
    {e : AuthError} (h : (AuthSql.insertOrganisation input).exec env db = .error e) :
    (∃ g, input.gstin = some g ∧ varchar 15 g = none ∧ e = .stringDataRightTruncation) ∨
    e = .pg (.uniqueViolation "organisations_pkey") ∨
    ∃ g g', input.gstin = some g ∧ varchar 15 g = some g' ∧
      (∃ o ∈ db.organisations, o.gstin = some g') ∧
      e = .pg (.uniqueViolation "organisations_gstin_key") := by
  simp only [AuthSql.exec] at h
  cases hg : gstinColumn input.gstin with
  | error e' =>
      rw [hg] at h
      cases h
      exact Or.inl (gstinColumn_error hg)
  | ok gstin =>
      rw [hg] at h
      obtain ⟨-, rfl⟩ | h := requireAuth_bind_error h
      · exact Or.inr (Or.inl rfl)
      · obtain ⟨hall, rfl⟩ | h := requireAuth_bind_error h
        · -- Another organisation has the GSTIN of the column.
          simp only [List.all_eq_false, Bool.or_eq_true, not_or, Bool.not_eq_true,
            bne_eq_false_iff_eq] at hall
          obtain ⟨o, ho, hsome, heq⟩ := hall
          obtain ⟨g', rfl⟩ := Option.isSome_iff_exists.mp (Option.isNone_eq_false_iff.mp hsome)
          obtain ⟨g, hinput, hcolumn⟩ := gstinColumn_some hg
          exact Or.inr (Or.inr ⟨g, g', hinput, hcolumn, ⟨o, Table.mem_def.mpr ho, heq⟩, rfl⟩)
        · cases h

/-- A successful `INSERT INTO organisation_credentials`. -/
theorem AuthSql.insertCredential_row {input : CreateCredentialInput} {env : Env}
    {db : AuthDatabase} {rows : List AuthRow} {b : List OrganisationCredential}
    (h : (AuthSql.insertCredential input).exec env db = .ok (rows, b)) :
    rows = [.credential (input.row env)] ∧ b = [input.row env] ∧
      db.credentials.get? env.uuid = none ∧ (∀ c ∈ db.credentials, c.orgId ≠ input.orgId) ∧
      (∀ c ∈ db.credentials, c.email ≠ input.email) ∧
      (db.organisations.get? input.orgId).isSome = true := by
  obtain ⟨_, hid, h⟩ := except_bind_ok h
  obtain ⟨_, horg, h⟩ := except_bind_ok h
  obtain ⟨_, hemail, h⟩ := except_bind_ok h
  obtain ⟨_, hkey, h⟩ := except_bind_ok h
  cases h
  refine ⟨rfl, rfl, Option.isNone_iff_eq_none.mp (requireAuth_ok hid), ?_, ?_, requireAuth_ok hkey⟩
  · simpa [Table.mem_def] using requireAuth_ok horg
  · simpa [Table.mem_def] using requireAuth_ok hemail

/-- Why `INSERT INTO organisation_credentials` fails. -/
theorem AuthSql.insertCredential_error {input : CreateCredentialInput} {env : Env}
    {db : AuthDatabase} {e : AuthError}
    (h : (AuthSql.insertCredential input).exec env db = .error e) :
    (∃ pe ∈ generatedIdErrors, e = .pg pe) ∨
    ((∃ c ∈ db.credentials, c.email = input.email) ∧
      e = .pg (.uniqueViolation "organisation_credentials_email_key")) := by
  obtain ⟨-, rfl⟩ | h := requireAuth_bind_error h
  · exact Or.inl ⟨_, by simp [generatedIdErrors], rfl⟩
  obtain ⟨-, rfl⟩ | h := requireAuth_bind_error h
  · exact Or.inl ⟨_, by simp [generatedIdErrors], rfl⟩
  obtain ⟨hall, rfl⟩ | h := requireAuth_bind_error h
  · simp only [List.all_eq_false, Bool.not_eq_true, bne_eq_false_iff_eq] at hall
    obtain ⟨c, hc, hemail⟩ := hall
    exact Or.inr ⟨⟨c, Table.mem_def.mpr hc, hemail⟩, rfl⟩
  obtain ⟨-, rfl⟩ | h := requireAuth_bind_error h
  · exact Or.inl ⟨_, by simp [generatedIdErrors], rfl⟩
  · cases h

/-- `bcryptHash` answers with a hash of the password. -/
theorem idles_bcryptHash {password : String} {Q : String → AccountTrace → Prop}
    (h : ∀ db salt, Q (runtime.bcryptHash password runtime.bcryptRounds salt)
      ⟨seen ++ [db], done, .idle⟩) :
    AuthIdles runtime call (bcryptHash password) seen done Q := by
  refine Idles.ext trivial (fun env db e he => ?_) fun env db b hx => ?_
  · simp only [authPostgres, AuthExt.run] at he
    split at he
    · cases he
      exact .bcrypt call
    · cases he
  · simp only [authPostgres, AuthExt.run] at hx
    split at hx
    · cases hx
    · cases hx
      exact h db env.random

/-- `OrganisationRepository.create` commits the organisation of the registration. -/
theorem idles_createOrganisation {input : CreateOrgInput} {registration : RegisterOrgInput}
    {Q : Organisation → AccountTrace → Prop} (hgstin : registration.gstin = input.gstin)
    (h : ∀ db o, o.legalName = input.legalName → o.orgType = input.orgType →
      Q o ⟨seen ++ [db], addBatch done [.organisation o], .idle⟩) :
    AuthIdles runtime (.register registration) (OrganisationRepository.create input) seen done
      Q := by
  refine Idles.bind (Idles.pool trivial (fun env db e he => ?_) fun env db rows b hx => ?_)
  · obtain ⟨g, hg, hlong, rfl⟩ | rfl | ⟨g, g', hg, hcolumn, htaken, rfl⟩ :=
      AuthSql.insertOrganisation_error he
    · exact .gstinLong g (hgstin.trans hg) hlong
    · exact .generatedId _ (by simp [generatedIdErrors])
    · exact .gstinTaken g g' (hgstin.trans hg) hcolumn ⟨db, by simp, htaken⟩
  · obtain ⟨o, rfl, rfl, -, hname, htype⟩ := AuthSql.insertOrganisation_row hx
    exact Idles.pure (h db o hname htype)

/-- `AuthRepository.create` commits the credential of an organisation already
committed. -/
theorem idles_createCredential {input : CreateCredentialInput} {registration : RegisterOrgInput}
    {o : Organisation} {Q : OrganisationCredential → AccountTrace → Prop}
    (hemail : registration.email = input.email) (hrole : input.role ≠ .platformAdmin)
    (hdone : [.organisation o] ∈ done) (horg : o.id = input.orgId)
    (htype : o.orgType = input.role.orgType)
    (h : ∀ db env c, c = CreateCredentialInput.row
        { input with email := runtime.normalise input.email } env →
      Q c ⟨seen ++ [db], addBatch done [.credential c], .idle⟩) :
    AuthIdles runtime (.register registration) (AuthRepository.create runtime.toAuthRuntime input)
      seen done Q := by
  refine Idles.bind (Idles.pool ?_ (fun env db e he => ?_) fun env db rows b hx => ?_)
  · exact ⟨hrole, [.organisation o], hdone, o, rfl, horg, htype⟩
  · obtain ⟨pe, hpe, rfl⟩ | ⟨htaken, rfl⟩ := AuthSql.insertCredential_error he
    · exact .generatedId pe hpe
    · rw [← hemail] at htaken
      exact .emailKey ⟨db, by simp, htaken⟩
  · obtain ⟨rfl, rfl, -⟩ := AuthSql.insertCredential_row hx
    exact Idles.pure (h db env _ rfl)

/-- `register` commits what is listed for it, and answers about it. -/
theorem idles_register {input : RegisterOrgInput} (hrole : input.role ≠ .platformAdmin) :
    AuthIdles runtime (.register input) (AuthService.register runtime.toAuthRuntime input) [] []
      fun r tr => AccountReplied runtime tr.SawThen tr.Did (.register input) (some r) := by
  unfold AuthService.register
  refine Idles.bind (idles_findByEmail (fun db c hc => ?_) fun db hno => ?_)
  · exact Idles.throw (.emailTaken ⟨db, by simp, c, hc⟩)
  refine Idles.bind (idles_bcryptHash fun _ salt => ?_)
  refine Idles.bind (idles_createOrganisation rfl fun _ o hname htype => ?_)
  refine Idles.bind (idles_createCredential rfl hrole (by simp [addBatch]) rfl htype
    fun _ env c hc => ?_)
  have hstores : input.Stores runtime o c := by
    rw [hc]
    exact ⟨hname, htype, rfl, rfl, ⟨salt, rfl⟩, rfl, rfl⟩
  -- Both batches are committed.
  refine idles_buildAuthResult hstores.orgId.symm hstores.role.symm fun db r hr => ?_
  exact .registered o c r ⟨_, by simp [addBatch], rfl⟩ ⟨_, by simp [addBatch], rfl⟩ hstores hr

/-- `bcryptCompare` answers whether the password matches the hash. -/
theorem idles_bcryptCompare {password hash : String} {Q : Bool → AccountTrace → Prop}
    (h : ∀ db, Q (runtime.bcryptCompare password hash) ⟨seen ++ [db], done, .idle⟩) :
    Idles (accountPostgres runtime) AccountConduct (bcryptCompare password hash) seen done Q
      (refusesAccount runtime call) := by
  refine Idles.ext trivial (fun env db e he => ?_) fun env db b hx => ?_
  · simp only [accountPostgres, LoginExt.run] at he
    split at he
    · cases he
      exact .bcrypt call
    · cases he
  · simp only [accountPostgres, LoginExt.run] at hx
    split at hx
    · cases hx
    · cases hx
      exact h db

/-- `findOrganisation` answers with the organisation of some state. -/
theorem idles_findOrganisation {id : Uuid} {Q : Option Organisation → AccountTrace → Prop}
    (h : ∀ db, Q (db.organisations.get? id) ⟨seen ++ [db], done, .idle⟩) :
    Idles (accountPostgres runtime) AccountConduct (findOrganisation id) seen done Q
      (refusesAccount runtime call) := by
  refine Idles.bind (Idles.pool trivial (fun _ _ _ he => nomatch he)
    fun env db rows b hx => Idles.pure ?_)
  obtain rfl : _ = rows := congrArg Prod.fst (Except.ok.inj hx)
  obtain rfl : _ = b := congrArg Prod.snd (Except.ok.inj hx)
  rw [Option.head?_toList]
  exact h db

/-- `login` commits nothing, and answers about a credential it has matched. -/
theorem idles_login (email password : String) :
    Idles (accountPostgres runtime) AccountConduct (AuthService.login runtime email password) [] []
      (fun r tr => AccountReplied runtime tr.SawThen tr.Did (.login email password) (some r))
      (refusesAccount runtime (.login email password)) := by
  unfold AuthService.login
  refine Idles.bind (idles_liftAuth (idles_findByEmail (fun db c hc => ?_) fun db hno => ?_))
  · refine Idles.bind (idles_bcryptCompare fun db₁ => ?_)
    dsimp only
    split
    · rename_i hpassword
      exact Idles.throw (.wrongPassword c ⟨db, by simp, hc⟩ hpassword)
    rename_i hpassword
    rw [Bool.not_eq_false] at hpassword
    split
    · -- `findByEmail` finds only active credentials.
      rename_i hinactive
      rw [hc.isActive] at hinactive
      cases hinactive
    refine Idles.bind (idles_findOrganisation fun db₂ => ?_)
    refine idles_liftAuth (idles_buildAuthResult rfl rfl fun db₃ r hr => ?_)
    exact .loggedIn r ⟨db, db₂, by simp, c, hc, hpassword, hr⟩
  · refine Idles.bind (idles_bcryptCompare fun db₁ => ?_)
    exact Idles.throw (.unknownEmail ⟨db, by simp, hno⟩)

/-- `recordLogin` writes the time of the login, and answers nothing. -/
theorem idles_recordLogin (orgId : Uuid) :
    Idles (accountPostgres runtime) AccountConduct (AuthRepository.recordLogin orgId) [] []
      (fun _ tr => AccountReplied runtime tr.SawThen tr.Did (.recordLogin orgId) none)
      (refusesAccount runtime (.recordLogin orgId)) :=
  Idles.pool trivial (fun _ _ _ he => nomatch he) fun _ _ _ _ _ => .recorded orgId

/-- Every routed call keeps to the conduct and answers as the tables say. -/
theorem AccountCall.obeys {call : AccountCall} (h : call.Routed) :
    Obeys (accountPostgres runtime) AccountConduct (call.answers runtime) (call.body runtime).run
      ⟨[], [], .idle⟩ := by
  refine Idles.obeys ?_
  cases call with
  | register input =>
      exact Idles.bind (Idles.weaken (idles_liftAuth (idles_register h))
        (fun r tr hr => Idles.pure hr) fun _ _ he => he)
  | login email password =>
      exact Idles.bind (Idles.weaken (idles_login email password) (fun r tr hr => Idles.pure hr)
        fun _ _ he => he)
  | recordLogin orgId =>
      exact Idles.bind (Idles.weaken (idles_recordLogin orgId) (fun r tr hr => Idles.pure hr)
        fun _ _ he => he)

end

end Vanguard
