import Vanguard.Services.Auth

/-!
# `Vanguard.Services.Login`: the login of an organisation

`AuthService.login` of `auth.service.ts`, with the statements of the repositories that only it
sends. `AccountCall` are the calls of the service: `register`, `login`, and the `recordLogin`
that `login` starts and does not await.

`register` and the parts of it that `login` shares are the programs of `Vanguard.Services.Auth`.
They know fewer commands and errors, and `liftAuth` is such a program among all of them.
-/

set_option autoImplicit false

namespace Vanguard

open ReadCommitted

/-! ### The statements -/

/-- The statements of the service: those of `register`, and two that only `login` sends. -/
inductive LoginSql where
  | auth (q : AuthSql)
  | updateLastLogin (orgId : Uuid)
  | selectOrganisation (id : Uuid)

/-- The rows that a statement answers. -/
abbrev LoginSql.Rows : LoginSql → Type
  | auth q => q.Rows
  | updateLastLogin _ => Unit
  | selectOrganisation _ => List Organisation

/-- What the calls of the service throw. `auth` is what `register` throws, too. -/
inductive LoginError where
  | auth (e : AuthError)
  | invalidCredentials
  | accountInactive
  deriving DecidableEq

/-- One statement on one database. -/
def LoginSql.exec : (q : LoginSql) → (env : Env) → AuthDatabase →
    Except LoginError (List AuthRow × q.Rows)
  | .auth q, env, db => (q.exec env db).mapError .auth
  | .updateLastLogin orgId, env, db =>
    .ok ((db.credentials.rows.filter fun c => c.orgId == orgId).map fun c =>
      .credential { c with lastLoginAt := some env.now }, ())
  | .selectOrganisation id, _, db => .ok ([], (db.organisations.get? id).toList)

/-! ### The other calls -/

/-- What the service takes from its runtime: that of `register`, and `bcrypt.compare`. -/
structure LoginRuntime extends AuthRuntime where
  bcryptCompare : (password hash : String) → Bool

/-- The calls that do not touch the database. -/
inductive LoginExt where
  | auth (e : AuthExt)
  | compare (password hash : String)

/-- What such a call answers. -/
abbrev LoginExt.Res : LoginExt → Type
  | auth e => e.Res
  | compare _ _ => Bool

/-- The commands to the outside: those of the registrations, and `bcrypt.compare`. -/
def LoginExt.run (runtime : LoginRuntime) : (e : LoginExt) → Env → Except LoginError e.Res
  | .auth e, env => (e.run runtime.toAuthRuntime env).mapError .auth
  | .compare password hash, env =>
    if env.fault then .error (.auth .bcrypt) else .ok (runtime.bcryptCompare password hash)

/-- The PostgreSQL engine on the two tables. -/
def accountPostgres (runtime : LoginRuntime) :
    Engine AuthDatabase AuthRow LoginSql LoginExt Env LoginError LoginSql.Rows LoginExt.Res where
  exec q _ env db := q.exec env db
  ext e env := e.run runtime env
  fault env := if env.fault then some (.auth (.pg .connectionFailure)) else none
  aborted := .auth (.pg .inFailedTransaction)

/-- The commands of the service. -/
abbrev LoginCmd := Command LoginSql LoginExt

/-- The asynchronous functions of the service. -/
abbrev LoginAsync := Await LoginCmd (Command.Res LoginSql.Rows LoginExt.Res) LoginError

/-- `pool.query(q)`. -/
def loginQuery (q : LoginSql) : LoginAsync q.Rows := Await.await (.pool q : LoginCmd)

/-- `bcrypt.compare(password, hash)`. -/
def bcryptCompare (password hash : String) : LoginAsync Bool :=
  Await.await (.ext (.compare password hash) : LoginCmd)

/-! ### The programs of `register` -/

/-- A command of `register` among those of the service. -/
def AuthCmd.login : AuthCmd → LoginCmd
  | .begin => .begin
  | .commit => .commit
  | .rollback => .rollback
  | .client q => .client (.auth q)
  | .pool q => .pool (.auth q)
  | .ext e => .ext (.auth e)

/-- An error of a command of `register`. No command answers the other two. -/
def LoginError.ofCommand : LoginError → AuthError
  | .auth e => e
  | .invalidCredentials | .accountInactive => .typeError

/-- What a command of `register` answers. -/
def AuthCmd.answer : (c : AuthCmd) →
    Except LoginError (Command.Res LoginSql.Rows LoginExt.Res (AuthCmd.login c)) →
      Except AuthError (Command.Res AuthSql.Rows AuthExt.Res c)
  | .begin, r | .commit, r | .rollback, r | .client _, r | .pool _, r | .ext _, r =>
    r.mapError LoginError.ofCommand

/-- A program of `Vanguard.Services.Auth` in the service. -/
def liftAuth {α : Type} (p : AuthAsync α) : LoginAsync α :=
  ExceptT.mk do
    let r ← p.run.lift AuthCmd.login AuthCmd.answer
    pure (r.mapError .auth)

/-! ### `login` -/

/-- `authRepo.recordLogin(orgId)`. -/
def AuthRepository.recordLogin (orgId : Uuid) : LoginAsync Unit :=
  loginQuery (.updateLastLogin orgId)

/-- `orgRepo.findById(id)`. -/
def findOrganisation (id : Uuid) : LoginAsync (Option Organisation) := do
  let rows ← loginQuery (.selectOrganisation id)
  pure rows.head?

/-- The hash that is compared when no credential is found. -/
def dummyHash : String := "$2a$12$dummyhashtopreventtimingattacksonnonexistentusers..xx"

/-- `login`. -/
def AuthService.login (runtime : LoginRuntime) (email password : String) :
    LoginAsync AuthResult := do
  let credential ← liftAuth (AuthRepository.findByEmail runtime.toAuthRuntime email)
  let hashToCompare := (credential.map OrganisationCredential.passwordHash).getD dummyHash
  let passwordValid ← bcryptCompare password hashToCompare
  match credential with
  | none => throw .invalidCredentials
  | some credential =>
    if passwordValid = false then
      throw .invalidCredentials
    if credential.isActive = false then
      throw .accountInactive
    -- `recordLogin` starts here. It is a call of its own, since nothing waits for it.
    let org ← findOrganisation credential.orgId
    liftAuth (AuthService.buildAuthResult runtime.toAuthRuntime credential.orgId
      credential.email credential.role ((org.map Organisation.legalName).getD ""))

/-! ### The calls -/

deriving instance DecidableEq for RegisterOrgInput

/-- The calls of the service. -/
inductive AccountCall where
  | register (input : RegisterOrgInput)
  | login (email password : String)
  | recordLogin (orgId : Uuid)
  deriving DecidableEq

/-- The program of a call. -/
def AccountCall.body (runtime : LoginRuntime) : AccountCall → LoginAsync (Option AuthResult)
  | .register input => do
    let result ← liftAuth (AuthService.register runtime.toAuthRuntime input)
    pure (some result)
  | .login email password => do
    let result ← AuthService.login runtime email password
    pure (some result)
  | .recordLogin orgId => do
    AuthRepository.recordLogin orgId
    pure none

/-- The tables and the calls on them. -/
abbrev AccountWorld :=
  ReadCommitted.World AuthDatabase AuthRow LoginSql LoginExt Env LoginError AccountCall
    (Except LoginError (Option AuthResult)) LoginSql.Rows LoginExt.Res

/-- A step of the calls. -/
abbrev AccountAction := Action AccountCall Env

end Vanguard
