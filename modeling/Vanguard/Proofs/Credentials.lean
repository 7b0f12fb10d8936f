import Vanguard.Proofs.Logins

/-!
# `Vanguard.Proofs.Credentials`: who can act for an organisation

The runs of the registrations and logins, in any interleaving and with any failure.

* `AccountCommit` lists what a call commits, `Extends` says what no commit undoes, and `Keyed`
  is the invariant of the two tables.
* `accounts_of_run`: every answer is true. A token is signed for a stored and active
  credential, with the type and the role of its organisation, and a login has shown a password
  that the stored hash accepts.
* `login_after_registration`: after a registration, the password that was registered logs in to
  its organisation, and no other one does.
* `actor_of_request`: behind the middleware of the routes, the actor of a call is a registered
  organisation of the right type.
-/

set_option autoImplicit false

namespace Vanguard

open ReadCommitted

/-! ### The tables -/

/-- A clash of two rows does not depend on which was written first. -/
instance : LawfulStore AuthDatabase AuthRow where
  clash_comm r r' := by
    cases r with
    | organisation a =>
        cases r' with
        | organisation b =>
            show (a.id == b.id || _) = (b.id == a.id || _)
            rw [Bool.beq_comm (a := a.id), Bool.beq_comm (a := a.gstin)]
            cases hg : b.gstin == a.gstin with
            | false => simp
            | true => rw [beq_iff_eq.mp hg]
        | credential b => rfl
    | credential a =>
        cases r' with
        | organisation b => rfl
        | credential b => simp [Store.clash, AuthRow.clash, Bool.beq_comm]

/-- The table `organisations`. -/
def organisationTable : Lookup AuthDatabase AuthRow Uuid Organisation where
  key := Organisation.id
  version
    | .organisation o => some o
    | .credential _ => none
  get db := db.organisations.get?
  get_write db x id := by
    cases x with
    | organisation o => exact Table.get?_put _ _ _
    | credential c => rfl
  key_of_get := Table.key_of_get?

/-- The table `organisation_credentials`. -/
def credentialTable : Lookup AuthDatabase AuthRow Uuid OrganisationCredential where
  key := OrganisationCredential.id
  version
    | .credential c => some c
    | .organisation _ => none
  get db := db.credentials.get?
  get_write db x id := by
    cases x with
    | organisation o => rfl
    | credential c => exact Table.get?_put _ _ _
  key_of_get := Table.key_of_get?

/-- The row versions of `UPDATE organisation_credentials SET last_login_at`. -/
def recordedLogin (db : AuthDatabase) (orgId : Uuid) (now : Timestamp) : List AuthRow :=
  (db.credentials.rows.filter fun c => c.orgId == orgId).map fun c =>
    .credential { c with lastLoginAt := some now }

section
variable {db : AuthDatabase} {orgId : Uuid} {now : Timestamp}

/-- The write of a login is of a credential that was there, with the time of the
login. -/
theorem holds_recordedLogin {c : OrganisationCredential}
    (h : credentialTable.Holds (recordedLogin db orgId now) c) :
    ∃ c₀ ∈ db.credentials, c₀.orgId = orgId ∧ c = { c₀ with lastLoginAt := some now } := by
  obtain ⟨x, hx, hc⟩ := h
  obtain ⟨c₀, hc₀, rfl⟩ := List.mem_map.mp hx
  obtain ⟨hmem, horg⟩ := List.mem_filter.mp hc₀
  cases hc
  exact ⟨c₀, hmem, by simpa using horg, rfl⟩

/-- The write of a login leaves the organisations alone. -/
theorem organisations_recordedLogin (id : Uuid) :
    (writeAll db (recordedLogin db orgId now)).organisations.get? id =
      db.organisations.get? id := by
  refine organisationTable.get_of_not_holds fun o ho => ?_
  obtain ⟨x, hx, ho⟩ := ho
  obtain ⟨c, -, rfl⟩ := List.mem_map.mp hx
  cases ho

/-- The statement updates the credential of the organisation, and no other one. -/
theorem credentials_recordedLogin (id : Uuid) :
    (writeAll db (recordedLogin db orgId now)).credentials.get? id =
      (db.credentials.get? id).map fun c =>
        if c.orgId = orgId then { c with lastLoginAt := some now } else c := by
  have hsame : ∀ {c c₀}, db.credentials.get? id = some c → c₀ ∈ db.credentials → c₀.id = id →
      c₀ = c := by
    intro c c₀ hc hc₀ hid
    have := Table.get?_of_mem hc₀
    rw [hid, hc] at this
    exact (Option.some.inj this).symm
  cases hfound : db.credentials.get? id with
  | none =>
      refine (credentialTable.get_of_not_holds fun c hc hid => ?_).trans hfound
      obtain ⟨c₀, hc₀, -, rfl⟩ := holds_recordedLogin hc
      have := Table.get?_of_mem hc₀
      rw [show c₀.id = id from hid, hfound] at this
      cases this
  | some c =>
      simp only [Option.map_some]
      split
      · rename_i horg
        have hmem : c ∈ db.credentials := Table.mem_of_get? hfound
        have hsome := credentialTable.isSome_writeAll
          (Option.isSome_iff_exists.mpr ⟨c, hfound⟩) (recordedLogin db orgId now)
        obtain ⟨c', hc'⟩ := Option.isSome_iff_exists.mp hsome
        rcases credentialTable.latest hc' with hholds | ⟨-, hno⟩
        · obtain ⟨c₀, hc₀, -, rfl⟩ := holds_recordedLogin hholds
          have hid := credentialTable.key_of_get hc'
          rw [← hsame hfound hc₀ hid]
          exact hc'
        · -- The batch has a version of the row.
          refine absurd (Table.key_of_get? hfound)
            (hno { c with lastLoginAt := some now } ⟨_, List.mem_map.mpr ⟨c, ?_, rfl⟩, rfl⟩)
          exact List.mem_filter.mpr ⟨hmem, by simpa using horg⟩
      · rename_i horg
        refine (credentialTable.get_of_not_holds fun c' hc' hid => ?_).trans hfound
        obtain ⟨c₀, hc₀, hc₀org, rfl⟩ := holds_recordedLogin hc'
        exact horg (hsame hfound hc₀ hid ▸ hc₀org)

end

/-! ### The commits -/

/-- The log of the two tables. -/
abbrev AccountLog := Timeline AuthDatabase AuthRow

/-- What a call commits. -/
inductive AccountCommit (t : AccountLog) : List AuthRow → Prop where
  | organisation (o : Organisation) (hid : t.now.organisations.get? o.id = none) :
      AccountCommit t [.organisation o]
  | credential (o : Organisation) (c : OrganisationCredential)
      (hid : t.now.credentials.get? c.id = none)
      (horg : ∀ c' ∈ t.now.credentials, c'.orgId ≠ c.orgId)
      (hemail : ∀ c' ∈ t.now.credentials, c'.email ≠ c.email)
      (ho : t.now.organisations.get? c.orgId = some o) (htype : o.orgType = c.role.orgType)
      (hrole : c.role ≠ .platformAdmin) : AccountCommit t [.credential c]
  | login (orgId : Uuid) (now : Timestamp) : AccountCommit t (recordedLogin t.now orgId now)

/-- What no commit undoes: an organisation stays, a credential stays up to the time of its last
login, and no administrator is added. -/
structure AuthDatabase.Extends (db db' : AuthDatabase) : Prop where
  organisation : ∀ id o, db.organisations.get? id = some o → db'.organisations.get? id = some o
  credential : ∀ id c, db.credentials.get? id = some c →
    ∃ last, db'.credentials.get? id = some { c with lastLoginAt := last }
  admin : ∀ c' ∈ db'.credentials, c'.role = .platformAdmin →
    ∃ c ∈ db.credentials, c.role = .platformAdmin ∧ c.orgId = c'.orgId

/-- Every database extends itself. -/
theorem AuthDatabase.Extends.refl (db : AuthDatabase) : db.Extends db :=
  ⟨fun _ _ h => h, fun _ c h => ⟨c.lastLoginAt, h⟩, fun c h hrole => ⟨c, h, hrole, rfl⟩⟩

/-- Extensions compose. -/
theorem AuthDatabase.Extends.trans {db db' db'' : AuthDatabase} (h : db.Extends db')
    (h' : db'.Extends db'') : db.Extends db'' where
  organisation id o ho := h'.organisation id o (h.organisation id o ho)
  credential id c hc := by
    obtain ⟨last, hc'⟩ := h.credential id c hc
    obtain ⟨last', hc''⟩ := h'.credential id _ hc'
    exact ⟨last', hc''⟩
  admin c'' hc'' hrole := by
    obtain ⟨c', hc', hrole', horg'⟩ := h'.admin c'' hc'' hrole
    obtain ⟨c, hc, hrole, horg⟩ := h.admin c' hc' hrole'
    exact ⟨c, hc, hrole, horg.trans horg'⟩

/-- The invariant of the two tables: an organisation and an email have at most one credential,
and a credential has an organisation, of the type of its role. -/
structure AuthDatabase.Keyed (db : AuthDatabase) : Prop where
  orgId : credentialTable.Unique db OrganisationCredential.orgId
  email : credentialTable.Unique db OrganisationCredential.email
  owner : ∀ id c, db.credentials.get? id = some c →
    ∃ o, db.organisations.get? c.orgId = some o ∧ o.orgType = c.role.orgType

section
variable {t : AccountLog} {rows : List AuthRow}

/-- A credential after a login was there before it, up to the time. -/
theorem credential_of_recordedLogin {db : AuthDatabase} {orgId id : Uuid} {now : Timestamp}
    {c' : OrganisationCredential}
    (h : (writeAll db (recordedLogin db orgId now)).credentials.get? id = some c') :
    ∃ c last, db.credentials.get? id = some c ∧ c' = { c with lastLoginAt := last } := by
  rw [credentials_recordedLogin] at h
  obtain ⟨c, hc, rfl⟩ := Option.map_eq_some_iff.mp h
  split
  · exact ⟨c, some now, hc, rfl⟩
  · exact ⟨c, c.lastLoginAt, hc, rfl⟩

/-- A row with a new id is added. -/
theorem credentials_insert {db : AuthDatabase} {c : OrganisationCredential} {id : Uuid}
    (hid : db.credentials.get? c.id = none) {c₀ : OrganisationCredential}
    (h : db.credentials.get? id = some c₀) :
    (Store.write db (.credential c)).credentials.get? id = some c₀ := by
  refine (Table.get?_put_ne _ _ fun he => ?_).trans h
  rw [he, h] at hid
  cases hid

/-- What a call commits extends the database. -/
theorem AccountCommit.extends (h : AccountCommit t rows) : t.now.Extends (t.commit rows).now := by
  cases h with
  | organisation o hid =>
      refine ⟨fun id o' ho' => ?_, fun id c hc => ⟨c.lastLoginAt, hc⟩, fun c hc hrole =>
        ⟨c, hc, hrole, rfl⟩⟩
      refine (Table.get?_put_ne _ _ fun he => ?_).trans ho'
      rw [he, ho'] at hid
      cases hid
  | credential o c hid horg hemail ho htype hrole =>
      refine ⟨fun id o ho => ho, fun id c' hc' => ⟨_, credentials_insert hid hc'⟩,
        fun c' hc' hadmin => ?_⟩
      rcases Table.mem_put.mp hc' with rfl | ⟨hc', -⟩
      · exact absurd hadmin hrole
      · exact ⟨c', hc', hadmin, rfl⟩
  | login orgId now =>
      refine ⟨fun id o ho => (organisations_recordedLogin id).trans ho, fun id c hc => ?_,
        fun c' hc' hadmin => ?_⟩
      · have : (writeAll t.now (recordedLogin t.now orgId now)).credentials.get? id = _ :=
          credentials_recordedLogin id
        rw [hc, Option.map_some] at this
        split at this
        · exact ⟨_, this⟩
        · exact ⟨c.lastLoginAt, this⟩
      · obtain ⟨c, last, hc, rfl⟩ := credential_of_recordedLogin (Table.get?_of_mem hc')
        exact ⟨c, Table.mem_of_get? hc, hadmin, rfl⟩

/-- What a call commits keeps the two tables keyed. -/
theorem AccountCommit.keyed (h : AccountCommit t rows) (ht : t.now.Keyed) :
    (t.commit rows).now.Keyed := by
  have hext := h.extends
  cases h with
  | organisation o hid =>
      refine ⟨ht.orgId, ht.email, fun id c hc => ?_⟩
      obtain ⟨o', ho', htype⟩ := ht.owner id c hc
      exact ⟨o', hext.organisation _ o' ho', htype⟩
  | credential o c hid horg hemail ho htype hrole =>
      refine ⟨?_, ?_, fun id c' hc' => ?_⟩
      · exact Lookup.Unique.write ht.orgId rfl fun id c' hc' _ => horg c' (Table.mem_of_get? hc')
      · exact Lookup.Unique.write ht.email rfl fun id c' hc' _ => hemail c' (Table.mem_of_get? hc')
      · rcases Table.mem_put.mp (Table.mem_of_get? hc') with rfl | ⟨hmem, -⟩
        · exact ⟨o, ho, htype⟩
        · exact ht.owner _ c' (Table.get?_of_mem hmem)
  | login orgId now =>
      -- Only the time of the last login differs.
      have hunique : ∀ {γ : Type} (f : OrganisationCredential → γ),
          (∀ c last, f { c with lastLoginAt := last } = f c) →
          credentialTable.Unique t.now f →
          credentialTable.Unique (writeAll t.now (recordedLogin t.now orgId now)) f := by
        intro γ f hf hu id id' c c' hc hc' he
        obtain ⟨c₀, _, hc₀, rfl⟩ := credential_of_recordedLogin hc
        obtain ⟨c₁, _, hc₁, rfl⟩ := credential_of_recordedLogin hc'
        have he : f c₀ = f c₁ := (hf c₀ _).symm.trans (he.trans (hf c₁ _))
        obtain rfl := hu _ _ _ _ hc₀ hc₁ he
        have hid : id = id' := (Table.key_of_get? hc₀).symm.trans (Table.key_of_get? hc₁)
        subst hid
        exact Option.some.inj (hc.symm.trans hc')
      refine ⟨hunique _ (fun _ _ => rfl) ht.orgId, hunique _ (fun _ _ => rfl) ht.email,
        fun id c' hc' => ?_⟩
      obtain ⟨c, last, hc, rfl⟩ := credential_of_recordedLogin hc'
      obtain ⟨o, ho, htype⟩ := ht.owner id c hc
      exact ⟨o, (organisations_recordedLogin _).trans ho, htype⟩

/-- The tables extend those of every earlier moment. -/
theorem AuthDatabase.Extends.of_le {t t' : AccountLog} (h : t ≤ t')
    (hc : Timeline.Commits AccountCommit t') : t.now.Extends t'.now :=
  Timeline.rel_of_le Extends.refl (fun _ _ _ => Extends.trans) h fun u rows hu =>
    (hc u rows hu).extends

end

/-! ### The runs -/

/-- The worlds of the registrations and logins. -/
abbrev AccountRuns (runtime : LoginRuntime) (ok : AccountWorld → AccountAction → Prop)
    (t : AccountLog) : AccountWorld → Prop :=
  Run (accountPostgres runtime) (fun call => (call.body runtime).run) ok (World.start t)

/-- A call that starts is one that the routes can make. -/
def RoutedCall (_ : AccountWorld) (a : AccountAction) : Prop :=
  ∀ call, a = .spawn call → call.Routed

/-- The discipline of the calls. None of them opens a transaction. -/
def accountDiscipline (runtime : LoginRuntime) :
    Discipline (accountPostgres runtime) AccountCall (Except LoginError (Option AuthResult)) where
  allowed := AccountConduct
  answers := AccountCall.answers runtime
  held _ ws := ws = []
  release _ := rfl
  publish _ := rfl
  client hallowed := absurd hallowed not_false
  pool _ h _ := h
  others h _ _ := h

section
variable {runtime : LoginRuntime} {db : AuthDatabase} {w : AccountWorld}

/-- A statement that succeeded has run as the tables say, without a fault. -/
theorem accountExec_ok {q : AuthSql} {start env : Env} {rows : List AuthRow} {b : q.Rows}
    (h : (accountPostgres runtime).exec (.auth q) start env db = .ok (rows, b)) :
    q.exec env db = .ok (rows, b) := by
  change (q.exec env db).mapError LoginError.auth = .ok (rows, b) at h
  cases hx : q.exec env db with
  | error e =>
      rw [hx] at h
      cases h
  | ok r =>
      rw [hx] at h
      cases h
      rfl

/-- What a call commits, after what it has committed before. -/
theorem AccountCommit.of_publishes {t born : AccountLog} {tr : AccountTrace} {rows : List AuthRow}
    (hcommits : Timeline.Commits AccountCommit t) (hin : tr.In born t)
    (h : (accountDiscipline runtime).Publishes t.now tr rows) (hne : rows ≠ []) :
    AccountCommit t rows := by
  cases h with
  | commit hallowed => exact absurd hallowed not_false
  | client hallowed => exact absurd hallowed not_false
  | @pool q env rows b hallowed hx =>
      cases q with
      | auth q =>
          have hx := accountExec_ok hx
          cases q with
          | selectActiveByEmail email =>
              exact absurd (congrArg Prod.fst (Except.ok.inj hx)).symm hne
          | insertOrganisation input =>
              obtain ⟨o, rfl, -, hid, -⟩ := AuthSql.insertOrganisation_row hx
              exact .organisation o hid
          | insertCredential input =>
              obtain ⟨rfl, -, hid, horg, hemail, -⟩ := AuthSql.insertCredential_row hx
              obtain ⟨hrole, _, hdone, o, rfl, hoid, htype⟩ := hallowed
              -- The organisation that the call has committed is still there.
              obtain ⟨u, -, hu⟩ := hin.done _ hdone
              have ho : (u.commit [.organisation o]).now.organisations.get? o.id = some o :=
                Table.get?_put_self _ _
              have ho := (AuthDatabase.Extends.of_le hu hcommits).organisation _ _ ho
              rw [hoid] at ho
              exact .credential o _ hid horg hemail ho htype hrole
      | updateLastLogin orgId =>
          obtain rfl : _ = rows := congrArg Prod.fst (Except.ok.inj hx)
          exact .login orgId env.now
      | selectOrganisation id =>
          exact absurd (congrArg Prod.fst (Except.ok.inj hx)).symm hne

/-- Every batch of a run is one that a call commits. -/
theorem AccountRuns.commits (h : AccountRuns runtime RoutedCall (.start db) w) :
    Timeline.Commits AccountCommit w.timeline := by
  refine Run.commits (accountDiscipline runtime)
    (fun _ call hcall => AccountCall.obeys (hcall call rfl)) rfl ?_ h
  exact fun hcommits hin _ hpublishes hne =>
    AccountCommit.of_publishes hcommits hin hpublishes hne

/-- The two tables are keyed at every moment of a run. -/
theorem AccountRuns.keyed (hdb : db.Keyed) (h : AccountRuns runtime RoutedCall (.start db) w) :
    ∀ u ≤ w.timeline, u.now.Keyed :=
  Timeline.forall_le (Run.le_timeline h) hdb (fun _ _ hc hu => hc.keyed hu) h.commits

/-! ### Every answer is true -/

/-- The rows stay the ones of the registration. -/
theorem RegisterOrgInput.Stores.later {input : RegisterOrgInput} {o : Organisation}
    {c : OrganisationCredential} (h : input.Stores runtime o c) (last : Option Timestamp) :
    input.Stores runtime o { c with lastLoginAt := last } :=
  ⟨h.legalName, h.orgType, h.orgId, h.email, h.passwordHash, h.role, h.isActive⟩

/-- What a token says stays about the credential after later logins. -/
theorem AuthResult.About.later {r : AuthResult} {c : OrganisationCredential}
    {email legalName : String} (h : r.About runtime c email legalName)
    (last : Option Timestamp) : r.About runtime { c with lastLoginAt := last } email legalName :=
  ⟨h.organisationId, h.legalName, h.role, h.expiresIn, h.token⟩

/-- What the reply of a call says about the tables. -/
def AccountCall.Holds (runtime : LoginRuntime) (db : AuthDatabase) :
    AccountCall → Option AuthResult → Prop
  | .register input, some r => ∃ o ∈ db.organisations, ∃ c ∈ db.credentials,
    input.Stores runtime o c ∧ r.About runtime c input.email o.legalName
  | .login email password, some r => ∃ o ∈ db.organisations, ∃ c,
    db.Active runtime email c ∧ c.orgId = o.id ∧ o.orgType = c.role.orgType ∧
      runtime.bcryptCompare password c.passwordHash = true ∧
      r.About runtime c c.email o.legalName
  | .recordLogin _, none => True
  | _, _ => False

/-- What the answer of a call means. -/
def AccountCall.Answered (runtime : LoginRuntime) (born now : AccountLog) (call : AccountCall) :
    Except LoginError (Option AuthResult) → Prop
  | .ok b => call.Holds runtime now.now b
  | .error e => AccountRefusal runtime (During born now) call e

/-- A refusal stays justified when more has been seen. -/
theorem AccountRefusal.mono {saw saw' : (AuthDatabase → Prop) → Prop}
    (hsaw : ∀ p, saw p → saw' p) {call : AccountCall} {e : LoginError}
    (h : AccountRefusal runtime saw call e) : AccountRefusal runtime saw' call e := by
  cases h with
  | connection => exact .connection call
  | bcrypt => exact .bcrypt call
  | jwt _ p now h => exact .jwt call p now h
  | emailTaken h => exact .emailTaken (hsaw _ h)
  | gstinLong g h hlong => exact .gstinLong g h hlong
  | gstinTaken g g' hinput hcolumn h => exact .gstinTaken g g' hinput hcolumn (hsaw _ h)
  | emailKey h => exact .emailKey (hsaw _ h)
  | generatedId e h => exact .generatedId e h
  | unknownEmail h => exact .unknownEmail (hsaw _ h)
  | wrongPassword c h hpassword => exact .wrongPassword c (hsaw _ h) hpassword

/-- A session of the registrations and logins. -/
abbrev AccountSession : Type :=
  Session AuthDatabase AuthRow LoginSql LoginExt Env LoginError AccountCall
    (Except LoginError (Option AuthResult)) LoginSql.Rows LoginExt.Res

/-- An answer and the trace of its call in the log. -/
theorem AccountRuns.answered (h : AccountRuns runtime RoutedCall (.start db) w)
    {s : AccountSession} (hs : s ∈ w.sessions) {a : Except LoginError (Option AuthResult)}
    (ha : s.prog = .ret a) :
    ∃ tr : AccountTrace, tr.In s.born w.timeline ∧ s.call.answers runtime a tr := by
  have horderly : w.Orderly (accountDiscipline runtime) :=
    Run.orderly _ (t := .start db) (fun _ call hcall => AccountCall.obeys (hcall call rfl)) rfl h
  exact horderly.answered hs ha

/-- A reply is about rows that are stored. -/
theorem AccountRuns.holds (hdb : db.Keyed) (h : AccountRuns runtime RoutedCall (.start db) w)
    {s : AccountSession} (hs : s ∈ w.sessions) {b : Option AuthResult}
    (ha : s.prog = .ret (.ok b)) : s.call.Holds runtime w.db b := by
  obtain ⟨tr, hin, hanswers⟩ := h.answered hs ha
  have hext : ∀ {u}, u ≤ w.timeline → u.now.Extends w.db := fun hu =>
    AuthDatabase.Extends.of_le hu h.commits
  generalize s.call = call at hanswers ⊢
  cases hanswers with
  | registered o c r ho hc hstores hr =>
      obtain ⟨_, hdone, rfl⟩ := ho
      obtain ⟨_, hdone', rfl⟩ := hc
      obtain ⟨u, -, hu⟩ := hin.done _ hdone
      obtain ⟨u', -, hu'⟩ := hin.done _ hdone'
      have ho := (hext hu).organisation o.id o (Table.get?_put_self _ _)
      obtain ⟨last, hc⟩ := (hext hu').credential c.id c (Table.get?_put_self _ _)
      exact ⟨o, Table.mem_of_get? ho, _, Table.mem_of_get? hc, hstores.later last,
        hr.later last⟩
  | @loggedIn email password r hlogin =>
      obtain ⟨u, u', -, hu, hu', c, hactive, hpassword, hr⟩ := hin.sawThen hlogin
      -- The organisation of the credential was there when the login has read it.
      obtain ⟨o, ho, htype⟩ := (h.keyed hdb u (hu.trans hu')).owner c.id c
        (Table.get?_of_mem hactive.stored)
      have ho' := (AuthDatabase.Extends.of_le hu fun v rows hv =>
        h.commits v rows (hv.trans hu')).organisation _ o ho
      rw [ho', Option.map_some, Option.getD_some] at hr
      obtain ⟨last, hc⟩ := (hext (hu.trans hu')).credential c.id c
        (Table.get?_of_mem hactive.stored)
      exact ⟨o, Table.mem_of_get? ((hext hu').organisation _ o ho'), _,
        ⟨Table.mem_of_get? hc, hactive.email, hactive.isActive⟩,
        (Table.key_of_get? ho).symm, htype, hpassword, hr.later last⟩
  | recorded orgId => trivial

/-- A reply is about a stored active credential, whatever the tables were at the start. -/
theorem AccountRuns.credential (h : AccountRuns runtime RoutedCall (.start db) w)
    {s : AccountSession} (hs : s ∈ w.sessions) {r : AuthResult}
    (ha : s.prog = .ret (.ok (some r))) :
    ∃ c ∈ w.db.credentials, c.isActive = true ∧
      ∃ email legalName, r.About runtime c email legalName := by
  obtain ⟨tr, hin, hanswers⟩ := h.answered hs ha
  have hstays : ∀ {u c}, u ≤ w.timeline → u.now.credentials.get? c.id = some c →
      ∃ last, { c with lastLoginAt := last } ∈ w.db.credentials := by
    intro u c hu hc
    obtain ⟨last, hc'⟩ := (AuthDatabase.Extends.of_le hu h.commits).credential c.id c hc
    exact ⟨last, Table.mem_of_get? hc'⟩
  generalize s.call = call at hanswers
  cases hanswers with
  | registered o c r _ hc hstores hr =>
      obtain ⟨_, hdone, rfl⟩ := hc
      obtain ⟨u, -, hu⟩ := hin.done _ hdone
      obtain ⟨last, hmem⟩ := hstays hu (Table.get?_put_self _ _)
      exact ⟨_, hmem, hstores.isActive, _, _, hr.later last⟩
  | loggedIn r hlogin =>
      obtain ⟨u, u', -, hu, hu', c, hactive, -, hr⟩ := hin.sawThen hlogin
      obtain ⟨last, hmem⟩ := hstays (hu.trans hu') (Table.get?_of_mem hactive.stored)
      exact ⟨_, hmem, hactive.isActive, _, _, hr.later last⟩

/-- An error has a reason that was there while the call ran. -/
theorem AccountRuns.refused (h : AccountRuns runtime RoutedCall (.start db) w)
    {s : AccountSession} (hs : s ∈ w.sessions) {e : LoginError} (ha : s.prog = .ret (.error e)) :
    AccountRefusal runtime (During s.born w.timeline) s.call e := by
  obtain ⟨tr, hin, hanswers⟩ := h.answered hs ha
  exact AccountRefusal.mono (fun _ => hin.saw) hanswers

/-- In every run of registrations and logins, every answer is true. A reply is about rows that are
stored, and its token is signed for their organisation and role; an error has a reason that was
there while the call ran. -/
theorem accounts_of_run (hdb : db.Keyed) (h : AccountRuns runtime RoutedCall (.start db) w)
    {s : Session AuthDatabase AuthRow LoginSql LoginExt Env LoginError AccountCall
      (Except LoginError (Option AuthResult)) LoginSql.Rows LoginExt.Res} (hs : s ∈ w.sessions)
    {a : Except LoginError (Option AuthResult)} (ha : s.prog = .ret a) :
    s.call.Answered runtime s.born w.timeline a := by
  cases a with
  | ok b => exact h.holds hdb hs ha
  | error e => exact h.refused hs ha

/-! ### Logging in after a registration -/

/-- A failure of the connection, of `bcrypt` or of `jwt.sign`. -/
def AuthError.Fails : AuthError → Prop
  | .pg e => e = .connectionFailure
  | .bcrypt | .jwt => True
  | .error _ | .stringDataRightTruncation | .typeError => False

/-- `c` is the only active credential of the email, up to the time of its last login. -/
def AuthDatabase.OnlyActive (db : AuthDatabase) (runtime : LoginRuntime) (email : String)
    (c : OrganisationCredential) : Prop :=
  ∃ last, db.Active runtime email { c with lastLoginAt := last } ∧
    ∀ c', db.Active runtime email c' → c' = { c with lastLoginAt := last }

/-- A stored registration stays: at every later moment, its organisation is there, and its
credential is the only one that logs in with its email. -/
theorem AccountRuns.onlyActive (hdb : db.Keyed) (h : AccountRuns runtime RoutedCall (.start db) w)
    {t u : AccountLog} (ht : t ≤ u) (hu : u ≤ w.timeline) {input : RegisterOrgInput}
    {o : Organisation} {c : OrganisationCredential} (ho : o ∈ t.now.organisations)
    (hc : c ∈ t.now.credentials) (hstores : input.Stores runtime o c) {email : String}
    (hemail : runtime.normalise email = runtime.normalise input.email) :
    u.now.organisations.get? o.id = some o ∧ u.now.OnlyActive runtime email c := by
  have hext := AuthDatabase.Extends.of_le ht fun v rows hv => h.commits v rows (hv.trans hu)
  obtain ⟨last, hlast⟩ := hext.credential c.id c (Table.get?_of_mem hc)
  have hactive : u.now.Active runtime email { c with lastLoginAt := last } :=
    ⟨Table.mem_of_get? hlast, hstores.email.trans hemail.symm, hstores.isActive⟩
  refine ⟨hext.organisation _ o (Table.get?_of_mem ho), last, hactive, fun c' hc' => ?_⟩
  exact (h.keyed hdb u hu).email _ _ _ _ (Table.get?_of_mem hc'.stored) hlast
    (hc'.email.trans hactive.email.symm)

/-- A call that has registered an organisation has ended, and a login with its email starts
later. If `bcrypt.compare` accepts the hash of a password for the `same` passwords only, the login
answers the organisation for such a password and refuses every other one. It may fail, but it is
never answered anything else. -/
theorem login_after_registration {same : String → String → Prop}
    (hbcrypt : ∀ p q salt, runtime.bcryptCompare p
      (runtime.bcryptHash q runtime.bcryptRounds salt) = true ↔ same p q)
    (hdb : db.Keyed) (h : AccountRuns runtime RoutedCall (.start db) w)
    {s : Session AuthDatabase AuthRow LoginSql LoginExt Env LoginError AccountCall
      (Except LoginError (Option AuthResult)) LoginSql.Rows LoginExt.Res} (hs : s ∈ w.sessions)
    {input : RegisterOrgInput} (hcall : s.call = .register input) {r : AuthResult}
    (ha : s.prog = .ret (.ok (some r))) {w' : AccountWorld}
    (h' : Run (accountPostgres runtime) (fun call => (call.body runtime).run) RoutedCall w w')
    {s' : Session AuthDatabase AuthRow LoginSql LoginExt Env LoginError AccountCall
      (Except LoginError (Option AuthResult)) LoginSql.Rows LoginExt.Res} {i : Nat}
    (hnew : w.sessions.length ≤ i) (hi : w'.sessions[i]? = some s') {email password : String}
    (hlogin : s'.call = .login email password)
    (hemail : runtime.normalise email = runtime.normalise input.email)
    {a : Except LoginError (Option AuthResult)} (ha' : s'.prog = .ret a) :
    (∃ r', a = .ok (some r') ∧ same password input.password ∧
      r'.organisationId = r.organisationId ∧ r'.legalName = input.legalName ∧
      r'.role = input.role) ∨
    (a = .error .invalidCredentials ∧ ¬ same password input.password) ∨
    ∃ e : AuthError, a = .error (.auth e) ∧ e.Fails := by
  have hrun : AccountRuns runtime RoutedCall (.start db) w' := h.trans h'
  have hafter : w.timeline ≤ s'.born := Run.le_born h' hnew hi
  have hregistered := h.holds hdb hs ha
  rw [hcall] at hregistered
  obtain ⟨o, ho, c, hc, hstores, hr⟩ := hregistered
  -- The credential is the only one of the email at every moment of the login.
  have hlater : ∀ {u}, w.timeline ≤ u → u ≤ w'.timeline →
      u.now.organisations.get? o.id = some o ∧ u.now.OnlyActive runtime email c :=
    fun hu hu' => hrun.onlyActive hdb hu hu' ho hc hstores hemail
  have hpassword : runtime.bcryptCompare password c.passwordHash = true ↔
      same password input.password := by
    obtain ⟨salt, hsalt⟩ := hstores.passwordHash
    rw [hsalt]
    exact hbcrypt _ _ salt
  have hs' := List.mem_of_getElem? hi
  cases a with
  | ok b =>
      have hreply := hrun.holds hdb hs' ha'
      rw [hlogin] at hreply
      cases b with
      | none => exact absurd hreply not_false
      | some r' =>
          obtain ⟨o', ho', c', hactive, horg, -, hcompare, hr'⟩ := hreply
          obtain ⟨ho, last, -, honly⟩ := hlater (Run.le_timeline h') (le_refl _)
          obtain rfl := honly c' hactive
          have hid : o'.id = o.id := horg.symm.trans hstores.orgId
          obtain rfl : o = o' := Option.some.inj (ho.symm.trans (hid ▸ Table.get?_of_mem ho'))
          refine Or.inl ⟨r', rfl, hpassword.mp hcompare, ?_, ?_, ?_⟩
          · exact hr'.organisationId.trans hr.organisationId.symm
          · exact hr'.legalName.trans hstores.legalName
          · exact hr'.role.trans hstores.role
  | error e =>
      have hrefused := hrun.refused hs' ha'
      rw [hlogin] at hrefused
      cases hrefused with
      | connection => exact Or.inr (Or.inr ⟨_, rfl, rfl⟩)
      | bcrypt => exact Or.inr (Or.inr ⟨_, rfl, trivial⟩)
      | jwt => exact Or.inr (Or.inr ⟨_, rfl, trivial⟩)
      | unknownEmail hno =>
          obtain ⟨u, hborn, hu, hno⟩ := hno
          obtain ⟨-, last, hactive, -⟩ := hlater (hafter.trans hborn) hu
          exact absurd hactive (hno _)
      | wrongPassword c' hactive hwrong =>
          obtain ⟨u, hborn, hu, hactive⟩ := hactive
          obtain ⟨-, last, -, honly⟩ := hlater (hafter.trans hborn) hu
          obtain rfl := honly c' hactive
          refine Or.inr (Or.inl ⟨rfl, fun hsame => ?_⟩)
          rw [hpassword.mpr hsame] at hwrong
          cases hwrong

/-! ### The actors of the requests -/

/-- The token that a program has ended with. -/
def issuedToken {C : Type} {R : C → Type} :
    Prog C R (Except LoginError (Option AuthResult)) → Option String
  | .ret (.ok (some r)) => some r.token
  | _ => none

/-- The tokens that the calls have been answered. -/
def AccountWorld.tokens (w : AccountWorld) : List String :=
  w.sessions.filterMap fun s => issuedToken s.prog

/-- A token in circulation is the one of an answered call. -/
theorem AccountWorld.answered_of_token {w : AccountWorld} {token : String}
    (h : token ∈ w.tokens) :
    ∃ s ∈ w.sessions, ∃ r, s.prog = .ret (.ok (some r)) ∧ r.token = token := by
  obtain ⟨s, hs, htoken⟩ := List.mem_filterMap.mp h
  refine ⟨s, hs, ?_⟩
  unfold issuedToken at htoken
  split at htoken
  · rename_i r hr
    exact ⟨r, hr, Option.some.inj htoken⟩
  · cases htoken

/-- What `jwt.verify` does with the token of the request.

- `payload`: it reads what `jwt.sign` has signed under the secret;
- `issued`: it accepts no token that the service has not issued, since nobody else has the
  secret. -/
structure Authentic (runtime : LoginRuntime) (verify : Verify) (w : AccountWorld)
    (r : HttpRequest) : Prop where
  payload : ∀ p expiresIn issuedAt token now user,
    runtime.jwtSign p runtime.jwtSecret expiresIn issuedAt = some token →
      verify now token = .ok user → user = ⟨p.sub, p.role⟩
  issued : ∀ header user, r.authorization = some header →
    verify r.now (String.ofList (header.toList.drop 7)) = .ok user →
      String.ofList (header.toList.drop 7) ∈ w.tokens

/-- A result is about an organisation and its active credential. -/
theorem AccountCall.Holds.account {call : AccountCall} {r : AuthResult}
    (h : call.Holds runtime db (some r)) : ∃ o ∈ db.organisations, ∃ c ∈ db.credentials,
      c.orgId = o.id ∧ o.orgType = c.role.orgType ∧ c.isActive = true ∧
        ∃ email legalName, r.About runtime c email legalName := by
  cases call with
  | register input =>
      obtain ⟨o, ho, c, hc, hstores, hr⟩ := h
      exact ⟨o, ho, c, hc, hstores.orgId, hstores.role ▸ hstores.orgType, hstores.isActive, _, _,
        hr⟩
  | login email password =>
      obtain ⟨o, ho, c, hactive, horg, htype, -, hr⟩ := h
      exact ⟨o, ho, c, hactive.stored, horg, htype, hactive.isActive, _, _, hr⟩
  | recordLogin orgId => exact absurd h not_false

/-- A user that `authenticate` lets through shows a token that a call has been answered, and is
the organisation and the role of the credential that this answer is about. -/
theorem answered_of_authenticate {verify : Verify} {r : HttpRequest}
    (hr : Authentic runtime verify w r) {user : JwtPayload}
    (hu : authenticate verify r.now r.authorization = .ok user) :
    ∃ s ∈ w.sessions, ∃ result, s.prog = .ret (.ok (some result)) ∧
      ∀ c email legalName, result.About runtime c email legalName → user = ⟨c.orgId, c.role⟩ := by
  unfold authenticate at hu
  cases hheader : r.authorization with
  | none =>
      rw [hheader] at hu
      cases hu
  | some header =>
      rw [hheader] at hu
      simp only at hu
      split at hu
      · cases hverify : verify r.now (String.ofList (header.toList.drop 7)) with
        | error e =>
            rw [hverify] at hu
            cases e <;> cases hu
        | ok user' =>
            rw [hverify] at hu
            obtain rfl := Except.ok.inj hu
            obtain ⟨s, hs, result, ha, htoken⟩ :=
              AccountWorld.answered_of_token (hr.issued header user' hheader hverify)
            refine ⟨s, hs, result, ha, fun c email legalName habout => ?_⟩
            obtain ⟨issuedAt, hsign⟩ := habout.token
            exact hr.payload _ _ issuedAt _ _ _ (htoken ▸ hsign) hverify
      · cases hu

/-- `RegisterSchema` has no administrator: in every run from tables without one, every request to
the failed jobs is refused. -/
theorem admin_refused (hadmin : ∀ c ∈ db.credentials, c.role ≠ .platformAdmin)
    (h : AccountRuns runtime RoutedCall (.start db) w) {verify : Verify} {r : HttpRequest}
    (hr : Authentic runtime verify w r) (hroute : r.route = .failedJobs) :
    ∃ answer, r.user verify = .error answer := by
  cases hu : r.user verify with
  | error answer => exact ⟨answer, rfl⟩
  | ok user =>
      obtain ⟨payload, -, hauthenticated, hrole⟩ :=
        r.user_of_roles (show r.route.guard = .roles [.platformAdmin] by rw [hroute]; rfl) hu
      -- The token was issued for a credential of an administrator.
      obtain ⟨s, hs, result, ha, huser⟩ := answered_of_authenticate hr hauthenticated
      obtain ⟨c', hc', -, email, legalName, habout⟩ := h.credential hs ha
      obtain rfl := huser c' email legalName habout
      have hext := AuthDatabase.Extends.of_le (Run.le_timeline h) h.commits
      obtain ⟨c, hc, hcrole, -⟩ := hext.admin c' hc' (List.mem_singleton.mp hrole)
      exact absurd hcrole (hadmin c hc)

end

/-! ### Sample runs -/

/-- A runtime whose hashes tell the passwords apart, and with one token. -/
def sampleLoginRuntime : LoginRuntime :=
  { sampleRuntime with
      bcryptHash := fun password _ _ => "$2a$12$" ++ password
      bcryptCompare := fun password hash => hash == "$2a$12$" ++ password
      jwtSign := fun p _ _ _ =>
        if p.sub = sampleSupplier ∧ p.role = .supplier then some "token" else some "other" }

/-- The two tables without rows are keyed. -/
theorem keyed_emptyAuthDb : emptyAuthDb.Keyed where
  orgId _ _ _ _ h := by cases h
  email _ _ _ _ h := by cases h
  owner _ _ h := by cases h

/-- The check of `RoutedCall`. -/
def routedCallCheck (_ : AccountWorld) : AccountAction → Bool
  | .spawn (.register input) => input.role != .platformAdmin
  | _ => true

/-- A step that passes `routedCallCheck` meets `RoutedCall`. -/
theorem routedCall_of_check (w : AccountWorld) (a : AccountAction)
    (h : routedCallCheck w a = true) : RoutedCall w a := by
  rintro call rfl
  cases call with
  | register input => simpa [routedCallCheck, AccountCall.Routed] using h
  | login email password => trivial
  | recordLogin orgId => trivial

/-- `n` steps of the session `i`. -/
def accountSteps (i n : Nat) : List AccountAction :=
  List.replicate n (.step i { sampleEnv with uuid := sampleSupplier })

/-- The world after a list of steps. -/
def accountPlay (w : AccountWorld) (as : List AccountAction) : Option AccountWorld :=
  w.exec (accountPostgres sampleLoginRuntime)
    (fun call => (call.body sampleLoginRuntime).run) routedCallCheck as

/-- A registration. -/
def stepsToRegistered : List AccountAction :=
  .spawn (.register (sampleRegistration "a@vse.in")) :: accountSteps 0 5

/-- Two logins with the email of the registration, one with another password, and the
`recordLogin` of the first one. -/
def stepsToLogin : List AccountAction :=
  .spawn (.login "A@vse.in " "secret") :: .spawn (.login "a@vse.in" "other") ::
    .spawn (.recordLogin sampleSupplier) :: accountSteps 1 4 ++ accountSteps 2 1 ++
    accountSteps 3 1 ++ accountSteps 2 1

/-- The calls of a world with the errors with which they have ended. -/
def AccountWorld.ended (w : AccountWorld) : List (AccountCall × Option (Option LoginError)) :=
  w.sessions.map fun s => (s.call, s.prog.ended)

/-- A run in which two logins, one of them refused, follow a registration. -/
theorem exists_sampleLogin : ∃ w w' : AccountWorld,
    AccountRuns sampleLoginRuntime RoutedCall (.start emptyAuthDb) w ∧
    Run (accountPostgres sampleLoginRuntime) (fun call => (call.body sampleLoginRuntime).run)
      RoutedCall w w' ∧ "token" ∈ w.tokens ∧
    w.ended = [(.register (sampleRegistration "a@vse.in"), some none)] ∧
    w'.ended =
      [(.register (sampleRegistration "a@vse.in"), some none),
        (.login "A@vse.in " "secret", some none),
        (.login "a@vse.in" "other", some (some .invalidCredentials)),
        (.recordLogin sampleSupplier, some none)] := by
  have h : ((accountPlay (World.start (.start emptyAuthDb)) stepsToRegistered).bind fun w =>
      (accountPlay w stepsToLogin).map fun w' => decide ("token" ∈ w.tokens ∧
        w.ended = [(.register (sampleRegistration "a@vse.in"), some none)] ∧
        w'.ended =
          [(.register (sampleRegistration "a@vse.in"), some none),
            (.login "A@vse.in " "secret", some none),
            (.login "a@vse.in" "other", some (some .invalidCredentials)),
            (.recordLogin sampleSupplier, some none)])) = some true := by
    decide +kernel
  obtain ⟨w, hw, h⟩ := Option.bind_eq_some_iff.mp h
  obtain ⟨w', hw', h⟩ := Option.map_eq_some_iff.mp h
  exact ⟨w, w', Run.of_exec routedCall_of_check hw, Run.of_exec routedCall_of_check hw',
    of_decide_eq_true h⟩

/-- The four calls: a registration, a login, a login with another password, and the
`recordLogin`. -/
theorem accounts_of_sample_logins : ∃ w : AccountWorld,
    AccountRuns sampleLoginRuntime RoutedCall (.start emptyAuthDb) w ∧
    w.sessions.map (fun s => s.prog.ended) =
      [some none, some none, some (some .invalidCredentials), some none] ∧
    ∀ s ∈ w.sessions, ∀ a, s.prog = .ret a →
      s.call.Answered sampleLoginRuntime s.born w.timeline a := by
  obtain ⟨w, w', h, h', -, -, hcalls⟩ := exists_sampleLogin
  refine ⟨w', h.trans h', ?_, fun s hs a ha =>
    accounts_of_run keyed_emptyAuthDb (h.trans h') hs ha⟩
  have := congrArg (List.map Prod.snd) hcalls
  rw [AccountWorld.ended, List.map_map] at this
  exact this

/-- In the sample runtime a password matches its own hash only. -/
theorem bcryptCompare_sampleLoginRuntime (p q : String) (salt : Nat) :
    sampleLoginRuntime.bcryptCompare p
      (sampleLoginRuntime.bcryptHash q sampleLoginRuntime.bcryptRounds salt) = true ↔ p = q := by
  show (("$2a$12$" ++ q) == ("$2a$12$" ++ p)) = true ↔ p = q
  rw [beq_iff_eq, String.append_right_inj, eq_comm]

/-- The call number `i` of a world. -/
theorem AccountWorld.exists_of_ended {w : AccountWorld} {i : Nat} {call : AccountCall}
    {o : Option LoginError} (h : w.ended[i]? = some (call, some o)) :
    ∃ s a, w.sessions[i]? = some s ∧ s.call = call ∧ s.prog = .ret a := by
  rw [AccountWorld.ended, List.getElem?_map, Option.map_eq_some_iff] at h
  obtain ⟨s, hi, hs⟩ := h
  obtain ⟨a, ha, -⟩ := Prog.ret_of_ended (congrArg Prod.snd hs)
  exact ⟨s, a, hi, congrArg Prod.fst hs, ha⟩

/-- The login with another spelling of the email, after the registration. -/
theorem login_after_sample_registration : ∃ (w w' : AccountWorld) (r : AuthResult)
    (a : Except LoginError (Option AuthResult)),
    AccountRuns sampleLoginRuntime RoutedCall (.start emptyAuthDb) w ∧
    Run (accountPostgres sampleLoginRuntime) (fun call => (call.body sampleLoginRuntime).run)
      RoutedCall w w' ∧
    (∃ s ∈ w'.sessions, s.call = .login "A@vse.in " "secret" ∧ s.prog = .ret a) ∧
    ((∃ r', a = .ok (some r') ∧ "secret" = (sampleRegistration "a@vse.in").password ∧
      r'.organisationId = r.organisationId ∧ r'.legalName = "Supplier" ∧ r'.role = .supplier) ∨
    (a = .error .invalidCredentials ∧ ¬ "secret" = (sampleRegistration "a@vse.in").password) ∨
    ∃ e : AuthError, a = .error (.auth e) ∧ e.Fails) := by
  obtain ⟨w, w', h, h', htoken, hcalls, hcalls'⟩ := exists_sampleLogin
  obtain ⟨s, hs, r, ha, -⟩ := AccountWorld.answered_of_token htoken
  have hmem : (s.call, s.prog.ended) ∈ w.ended := List.mem_map.mpr ⟨s, hs, rfl⟩
  rw [hcalls, List.mem_singleton] at hmem
  have hlength : w.sessions.length = 1 := by
    simpa [AccountWorld.ended] using congrArg List.length hcalls
  obtain ⟨s', a, hi, hlogin, ha'⟩ :=
    AccountWorld.exists_of_ended (i := 1) (congrArg (·[1]?) hcalls')
  exact ⟨w, w', r, a, h, h', ⟨s', List.mem_of_getElem? hi, hlogin, ha'⟩,
    login_after_registration bcryptCompare_sampleLoginRuntime keyed_emptyAuthDb h hs
      (congrArg Prod.fst hmem) ha h' hlength.le hi hlogin (by decide +kernel) ha'⟩

/-- `jwt.verify`, for the token of the supplier. -/
def loginVerify : Verify := fun _ token =>
  if token = "token" then .ok ⟨sampleSupplier, .supplier⟩ else .error .invalid

/-- A request of the supplier. -/
def sampleHttpRequest (route : Route) : HttpRequest := ⟨some "Bearer token", route, 1⟩

/-- In the sample world the token authenticates its request. -/
theorem authentic_sampleHttpRequest {w : AccountWorld} (h : "token" ∈ w.tokens) (route : Route) :
    Authentic sampleLoginRuntime loginVerify w (sampleHttpRequest route) where
  payload p expiresIn issuedAt token now user hsign hverify := by
    by_cases hp : p.sub = sampleSupplier ∧ p.role = .supplier
    · simp [sampleLoginRuntime, hp] at hsign
      subst hsign
      simp only [loginVerify, if_true, Except.ok.injEq] at hverify
      rw [hp.1, hp.2, hverify]
    · simp [sampleLoginRuntime, hp] at hsign
      subst hsign
      simp [loginVerify] at hverify
  issued header user hheader _ := by
    obtain rfl := Option.some.inj hheader
    exact h

/-- The supplier that has registered asks for the failed jobs. -/
theorem sample_admin_refused : ∃ w : AccountWorld,
    AccountRuns sampleLoginRuntime RoutedCall (.start emptyAuthDb) w ∧
    ∃ answer, (sampleHttpRequest .failedJobs).user loginVerify = .error answer := by
  obtain ⟨w, -, h, -, htoken, -⟩ := exists_sampleLogin
  exact ⟨w, h, admin_refused (fun _ hc => absurd hc List.not_mem_nil) h
    (authentic_sampleHttpRequest htoken .failedJobs) rfl⟩

end Vanguard
