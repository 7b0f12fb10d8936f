import Vanguard.Services.Access

/-!
# `Vanguard.Services.Auth`: the registration of an organisation

`AuthService.register` of `auth.service.ts` with the repository methods that it calls, on the
tables `organisations` and `organisation_credentials` of `V001__initial_schema.sql` and
`V002__auth_schema.sql`. Every statement runs on the pool, so each commits on its own.

`bcrypt.hash`, `jwt.sign`, the configuration and the Unicode case mapping of
`String.prototype.toLowerCase` are the fields of an `AuthRuntime`.
-/

set_option autoImplicit false

namespace Vanguard

open ReadCommitted

/-! ### The tables -/

/-- `OrganisationCredential` of `auth.repository.ts`: a row of `organisation_credentials`. -/
structure OrganisationCredential where
  id : Uuid
  orgId : Uuid
  email : String
  passwordHash : String
  role : OrgRole
  isActive : Bool
  lastLoginAt : Option Timestamp
  createdAt : Timestamp
  updatedAt : Timestamp

/-- The two tables. -/
structure AuthDatabase where
  organisations : Table Organisation Uuid Organisation.id
  credentials : Table OrganisationCredential Uuid OrganisationCredential.id

/-- What one `INSERT` writes. -/
inductive AuthRow where
  | organisation (r : Organisation)
  | credential (r : OrganisationCredential)

/-- The tables with one more row. -/
def AuthDatabase.write (db : AuthDatabase) : AuthRow → AuthDatabase
  | .organisation r => { db with organisations := db.organisations.put r }
  | .credential r => { db with credentials := db.credentials.put r }

/-- Two uncommitted rows that cannot exist side by side. -/
def AuthRow.clash : AuthRow → AuthRow → Bool
  | .organisation a, .organisation b => a.id == b.id || (a.gstin.isSome && a.gstin == b.gstin)
  | .credential a, .credential b => a.id == b.id || a.orgId == b.orgId || a.email == b.email
  | _, _ => false

/-- The two tables of the accounts are a store of rows. -/
instance : Store AuthDatabase AuthRow where
  write := AuthDatabase.write
  clash := AuthRow.clash

/-! ### The statements -/

/-- What `register` throws. -/
inductive AuthError where
  | error (message : String)
  | pg (e : PgError)
  /-- `value too long for type character varying`, code 22001. -/
  | stringDataRightTruncation
  | bcrypt
  | jwt
  | typeError
  deriving DecidableEq

/-- `CreateOrgInput` of `organisation.repository.ts`. -/
structure CreateOrgInput where
  legalName : String
  gstin : Option String
  orgType : OrgType

/-- `CreateCredentialInput` of `auth.repository.ts`. -/
structure CreateCredentialInput where
  orgId : Uuid
  email : String
  passwordHash : String
  role : OrgRole

/-- The statements of `register`, with their parameters. -/
inductive AuthSql where
  | selectActiveByEmail (email : String)
  | insertOrganisation (input : CreateOrgInput)
  | insertCredential (input : CreateCredentialInput)

/-- The rows that a statement answers. -/
abbrev AuthSql.Rows : AuthSql → Type
  | selectActiveByEmail _ | insertCredential _ => List OrganisationCredential
  | insertOrganisation _ => List Organisation

/-- A value for a column `VARCHAR(n)`: spaces beyond the length are cut off. -/
def varchar (n : Nat) (s : String) : Option String :=
  if s.length ≤ n then some s
  else if (s.toList.drop n).all (· == ' ') then some (String.ofList (s.toList.take n))
  else none

/-- The value of the column `gstin VARCHAR(15)`. -/
def gstinColumn : Option String → Except AuthError (Option String)
  | none => .ok none
  | some s =>
    match varchar 15 s with
    | some s => .ok (some s)
    | none => .error .stringDataRightTruncation

/-- The row that `INSERT INTO organisations` creates. -/
def CreateOrgInput.row (input : CreateOrgInput) (gstin : Option String) (env : Env) :
    Organisation :=
  { id := env.uuid
    legalName := input.legalName
    gstin := gstin
    orgType := input.orgType }

/-- The row that `INSERT INTO organisation_credentials` creates. -/
def CreateCredentialInput.row (input : CreateCredentialInput) (env : Env) :
    OrganisationCredential :=
  { id := env.uuid
    orgId := input.orgId
    email := input.email
    passwordHash := input.passwordHash
    role := input.role
    isActive := true
    lastLoginAt := none
    createdAt := env.now
    updatedAt := env.now }

/-- A constraint that holds, or its error. -/
def requireAuth (p : Bool) (e : PgError) : Except AuthError Unit :=
  (require p e).mapError .pg

/-- One statement on one database. -/
def AuthSql.exec : (q : AuthSql) → (env : Env) → AuthDatabase →
    Except AuthError (List AuthRow × q.Rows)
  | .selectActiveByEmail email, _, db =>
    .ok ([], (db.credentials.rows.find? fun c => c.email == email && c.isActive).toList)
  | .insertOrganisation input, env, db => do
    let gstin ← gstinColumn input.gstin
    requireAuth (db.organisations.get? env.uuid).isNone (.uniqueViolation "organisations_pkey")
    requireAuth (db.organisations.rows.all fun o => gstin.isNone || o.gstin != gstin)
      (.uniqueViolation "organisations_gstin_key")
    .ok ([.organisation (input.row gstin env)], [input.row gstin env])
  | .insertCredential input, env, db => do
    requireAuth (db.credentials.get? env.uuid).isNone
      (.uniqueViolation "organisation_credentials_pkey")
    requireAuth (db.credentials.rows.all fun c => c.orgId != input.orgId)
      (.uniqueViolation "organisation_credentials_org_id_key")
    requireAuth (db.credentials.rows.all fun c => c.email != input.email)
      (.uniqueViolation "organisation_credentials_email_key")
    requireAuth (db.organisations.get? input.orgId).isSome
      (.foreignKeyViolation "organisation_credentials" "organisation_credentials_org_id_fkey")
    .ok ([.credential (input.row env)], [input.row env])

/-! ### The other calls -/

/-- The payload that `buildAuthResult` signs. -/
structure TokenPayload where
  sub : Uuid
  email : String
  role : OrgRole
  orgId : Uuid

/-- What `register` takes from its runtime: `String.prototype.toLowerCase`, `bcrypt.hash` with
the random digits of its salt, `jwt.sign` at a time (`none` when it throws), and the
configuration. -/
structure AuthRuntime where
  toLowerCase : String → String
  bcryptHash : (password : String) → (rounds : Int) → (salt : Nat) → String
  jwtSign : TokenPayload → (secret expiresIn : String) → Timestamp → Option String
  bcryptRounds : Int
  jwtSecret : String
  jwtExpiresIn : String

/-- The calls that do not touch the database. -/
inductive AuthExt where
  | hash (password : String)
  | sign (payload : TokenPayload)

/-- What such a call answers. -/
abbrev AuthExt.Res : AuthExt → Type
  | hash _ | sign _ => String

/-- `jwt.sign` is synchronous, and throws when it does not accept its arguments. -/
def AuthExt.run (runtime : AuthRuntime) : (e : AuthExt) → Env → Except AuthError e.Res
  | .hash password, env =>
    if env.fault then .error .bcrypt
    else .ok (runtime.bcryptHash password runtime.bcryptRounds env.random)
  | .sign payload, env =>
    match runtime.jwtSign payload runtime.jwtSecret runtime.jwtExpiresIn env.now with
    | some token => .ok token
    | none => .error .jwt

/-- The PostgreSQL engine on the two tables. -/
def authPostgres (runtime : AuthRuntime) :
    Engine AuthDatabase AuthRow AuthSql AuthExt Env AuthError AuthSql.Rows AuthExt.Res where
  exec q _ env db := q.exec env db
  ext e env := e.run runtime env
  fault env := if env.fault then some (.pg .connectionFailure) else none
  aborted := .pg .inFailedTransaction

/-- The commands of `register`. -/
abbrev AuthCmd := Command AuthSql AuthExt

/-- The asynchronous functions of the service. -/
abbrev AuthAsync := Await AuthCmd (Command.Res AuthSql.Rows AuthExt.Res) AuthError

/-- `pool.query(q)`. -/
def authQuery (q : AuthSql) : AuthAsync q.Rows := Await.await (.pool q : AuthCmd)

/-- `bcrypt.hash(password, env.BCRYPT_ROUNDS)`. -/
def bcryptHash (password : String) : AuthAsync String :=
  Await.await (.ext (.hash password) : AuthCmd)

/-- `jwt.sign(payload, env.JWT_SECRET, { expiresIn: env.JWT_EXPIRES_IN })`. -/
def jwtSign (payload : TokenPayload) : AuthAsync String :=
  Await.await (.ext (.sign payload) : AuthCmd)

/-- `result.rows[0]!`. -/
def firstAuthRow {α : Type} : List α → AuthAsync α
  | r :: _ => pure r
  | [] => throw .typeError

/-! ### `register` -/

/-- `email.toLowerCase().trim()`. -/
def AuthRuntime.normalise (runtime : AuthRuntime) (email : String) : String :=
  trim (runtime.toLowerCase email)

namespace AuthRepository

/-- The active credential of an email. -/
def findByEmail (runtime : AuthRuntime) (email : String) :
    AuthAsync (Option OrganisationCredential) := do
  let rows ← authQuery (.selectActiveByEmail (runtime.normalise email))
  pure rows.head?

/-- `AuthRepository.create`: the email is stored in the form it is looked up in. -/
def create (runtime : AuthRuntime) (input : CreateCredentialInput) :
    AuthAsync OrganisationCredential := do
  let rows ← authQuery (.insertCredential { input with email := runtime.normalise input.email })
  firstAuthRow rows

end AuthRepository

/-- `OrganisationRepository.create`: the INSERT runs on the pool, so it commits at
once. -/
def OrganisationRepository.create (input : CreateOrgInput) : AuthAsync Organisation := do
  let rows ← authQuery (.insertOrganisation input)
  firstAuthRow rows

/-- `RegisterOrgInput` of `auth.service.ts`. -/
structure RegisterOrgInput where
  legalName : String
  gstin : Option String
  role : OrgRole
  email : String
  password : String

/-- `AuthResult` of `auth.service.ts`, with the fields of its `organisation`. -/
structure AuthResult where
  token : String
  expiresIn : String
  organisationId : Uuid
  legalName : String
  role : OrgRole

/-- The type of the organisation that registers with a role. -/
def OrgRole.orgType : OrgRole → OrgType
  | platformAdmin => .platform
  | supplier => .supplier
  | buyer => .buyer

namespace AuthService

/-- `buildAuthResult`. -/
def buildAuthResult (runtime : AuthRuntime) (orgId : Uuid) (email : String) (role : OrgRole)
    (legalName : String) : AuthAsync AuthResult := do
  let token ← jwtSign { sub := orgId, email := email, role := role, orgId := orgId }
  pure
    { token := token
      expiresIn := runtime.jwtExpiresIn
      organisationId := orgId
      legalName := legalName
      role := role }

/-- `register`. -/
def register (runtime : AuthRuntime) (input : RegisterOrgInput) : AuthAsync AuthResult := do
  let existing ← AuthRepository.findByEmail runtime input.email
  if existing.isSome then
    throw (.error ("Email " ++ input.email ++ " is already registered"))
  let passwordHash ← bcryptHash input.password
  let org ← OrganisationRepository.create
    { legalName := input.legalName
      gstin := input.gstin
      orgType := input.role.orgType }
  -- A second statement on the pool, without a transaction around the two.
  let _ ← AuthRepository.create runtime
    { orgId := org.id
      email := input.email
      passwordHash := passwordHash
      role := input.role }
  buildAuthResult runtime org.id input.email input.role org.legalName

end AuthService

/-- The tables and the registrations on them. -/
abbrev AuthWorld :=
  ReadCommitted.World AuthDatabase AuthRow AuthSql AuthExt Env AuthError RegisterOrgInput
    (Except AuthError AuthResult) AuthSql.Rows AuthExt.Res

/-- A step of the registrations. -/
abbrev AuthStep := Action RegisterOrgInput Env

end Vanguard
