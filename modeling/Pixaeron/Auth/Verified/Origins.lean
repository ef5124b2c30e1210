import Pixaeron.Transactions.Grounds
import Pixaeron.Auth.System

/-! # Verified: where sessions come from

A sign-in puts in a session only for the user whose password it has compared, and a refresh
exchanges the credential of a session only after it has verified the one that it was given. -/

namespace Pixaeron.Auth.Origins

open Transactions Transactions.Script

variable {services : Services} {call : Call} {known : Database → Prop} {p : Progress auth}

/-- The call may start sessions of this user: it has been trusted to, or it has found a verified
user with its address and the password of that user is the one it was given. -/
inductive MayStart (services : Services) (call : Call) (known : Database → Prop)
    (userId : Nat) : Prop
  | trusted {metadata : SessionRequestMetadata} {drawn : DrawnSession} {rememberMe : Bool} :
    call = .createSession userId metadata drawn rememberMe → MayStart services call known userId
  | password {email password passwordHash : String} {metadata : SessionRequestMetadata}
      {drawn : DrawnSession} {rememberMe : Bool}
    {db : Database} {u : User} : call = .login email password metadata drawn rememberMe → known db →
    db.userByEmail (services.normalizeEmail email) = some u → u.id = userId →
      u.emailVerified = true →
    u.password = some passwordHash → services.verifyPassword password (some passwordHash) = true →
      MayStart services call known userId

/-- The call has verified the credential that it was given against a token of the session. -/
structure MayRotate (services : Services) (call : Call) (known : Database → Prop)
    (sessionId hash : String) : Prop where
  verified : ∃ now cookie metadata nextCredential parsed db t,
    call = .refreshSession now cookie metadata nextCredential ∧
    parseRefreshToken cookie = some parsed ∧ parsed.sessionId = sessionId ∧ known db ∧
    db.tokens.get parsed.tokenId = some t ∧
      services.verifyRefreshCredential parsed.refreshCredential t.credentialHash = true ∧
    hash = nextCredential.hash

/-- What a commit does to the sessions. -/
def Fair (services : Services) (call : Call) (known : Database → Prop) (p : Progress auth) : Prop :=
  ∀ db id s', (p.change db).sessions.get id = some s' →
    (∃ s, db.sessions.get id = some s ∧ s'.userId = s.userId ∧
      (s'.refreshTokenHash = s.refreshTokenHash ∨
        MayRotate services call known id s'.refreshTokenHash)) ∨
    MayStart services call known s'.userId

def grounds (services : Services) : Grounds auth Call := Fair services

theorem MayStart.mono {known' : Database → Prop} {userId : Nat}
    (h : MayStart services call known userId) (hKnown : ∀ db, known db → known' db) :
    MayStart services call known' userId := by
  cases h with
  | trusted hCall => exact .trusted hCall
  | password hCall hDb hUser hId hVerified hPassword hCompared =>
    exact .password hCall (hKnown _ hDb) hUser hId hVerified hPassword hCompared

/-! ## Changes of the sessions -/

/-- The sessions are older ones, with a credential of `P`, or ones of `users`. -/
def Changes (P : String → String → Prop) (users : Nat → Prop)
    (change : Database → Database) : Prop :=
  ∀ db id s', (change db).sessions.get id = some s' →
    (∃ s, db.sessions.get id = some s ∧ s'.userId = s.userId ∧
      (s'.refreshTokenHash = s.refreshTokenHash ∨ P id s'.refreshTokenHash)) ∨
    users s'.userId

/-- Neither a session nor a credential is new. -/
abbrev Quiet : (Database → Database) → Prop := Changes (fun _ _ => False) fun _ => False

section Changes

variable {P P' : String → String → Prop} {users users' : Nat → Prop} {f g : Database → Database}

theorem Changes.mono (h : Changes P users f) (hP : ∀ id hash, P id hash → P' id hash)
    (hUsers : ∀ userId, users userId → users' userId) :
    Changes P' users' f := fun db id s' hGet => (h db id s' hGet).imp
  (fun ⟨s, hOld, hUser, hHash⟩ => ⟨s, hOld, hUser, hHash.imp_right (hP id _)⟩) (hUsers _)

theorem changes_of_same (h : ∀ db, (f db).sessions = db.sessions) : Changes P users f :=
  fun db _ s' hGet => .inl ⟨s', h db ▸ hGet, rfl, .inl rfl⟩

theorem changes_id : Changes P users id := changes_of_same fun _ => rfl

theorem Changes.comp (hf : Changes P users f) (hg : Changes P users g) :
    Changes P users (f ∘ g) := by
  intro db id s'' hGet
  rcases hf (g db) id s'' hGet with ⟨s', hGet', hUser', hHash'⟩ | hNew
  · rcases hg db id s' hGet' with ⟨s, hOld, hUser, hHash⟩ | hNew
    · refine .inl ⟨s, hOld, hUser'.trans hUser, ?_⟩
      rcases hHash' with hSame | hRotated
      · exact hHash.imp hSame.trans fun h => hSame ▸ h
      · exact .inr hRotated
    · exact .inr (hUser' ▸ hNew)
  · exact .inr hNew

theorem Changes.quiet (h : Quiet f) : Changes P users f :=
  h.mono (fun _ _ hNo => hNo.elim) fun _ hNo => hNo.elim

theorem changes_if {condition : Prop} [Decidable condition] (h : Changes P users f) :
    Changes P users fun db => if condition then db else f db := by
  by_cases hCondition : condition
  · simp only [if_pos hCondition]
    exact changes_id
  · simp only [if_neg hCondition]
    exact h

theorem changes_modify {ids : List String} {change : Session → Session}
    (hId : ∀ s, (change s).id = s.id) (hUser : ∀ s, (change s).userId = s.userId)
    (hHash : ∀ s, (change s).refreshTokenHash = s.refreshTokenHash ∨ ∀ id ∈ ids,
      P id (change s).refreshTokenHash) :
    Changes P users fun db => { db with sessions := db.sessions.modify ids change hId } := by
  intro db id s' hGet
  change (db.sessions.modify ids change hId).get id = some s' at hGet
  have hRow := hGet
  rw [Table.get_modify] at hRow
  obtain ⟨s, hOld, rfl⟩ := Option.map_eq_some_iff.mp hRow
  refine .inl ⟨s, hOld, ?_⟩
  split
  next hMem => exact ⟨hUser s, (hHash s).imp_right fun hAll => hAll id hMem⟩
  next => exact ⟨rfl, .inl rfl⟩

theorem quiet_revokeSessions {ids : List String} {revokedAt : Nat} {reason : SessionRevokedReason} :
    Quiet fun db => db.revokeSessions ids revokedAt reason :=
  changes_modify (Session.revoke_id revokedAt reason) (fun _ => rfl) fun _ => .inl rfl

theorem quiet_deleteSessions {ids : List String} : Quiet fun db => db.deleteSessions ids := by
  intro db id s' hGet
  have hRow : (db.sessions.get id).filter (fun s => !decide (s.id ∈ ids)) = some s' :=
    Table.get_delete.symm.trans hGet
  exact .inl ⟨s', (Option.filter_eq_some_iff.mp hRow).1, rfl, .inl rfl⟩

theorem changes_insertSession {session : Session} {verified : Option String}
    (h : users session.userId) :
    Changes P users fun db => db.insertSession session verified := by
  intro db id s' hGet
  have hRow : (db.sessions.get id).or (if session.id = id then some session else none) = some s' :=
    Table.get_insert.symm.trans hGet
  rcases Option.or_eq_some_iff.mp hRow with hOld | ⟨_, hNew⟩
  · exact .inl ⟨s', hOld, rfl, .inl rfl⟩
  · split at hNew <;> cases hNew
    exact .inr h

end Changes

theorem Changes.fair {P : String → String → Prop} {users : Nat → Prop}
    (h : Changes P users p.change) (hRotate : ∀ id hash,
      P id hash → MayRotate services call known id hash)
    (hStart : ∀ userId, users userId → MayStart services call known userId) :
    grounds services call known p :=
  h.mono hRotate hStart

theorem fair_of_quiet (h : Quiet p.change) : grounds services call known p :=
  h.fair (fun _ _ hNo => hNo.elim) fun _ hNo => hNo.elim

theorem grounded_of_writes {α : Type} {script : Script auth α}
    (h : script.Writes Quiet fun _ => False) :
    script.Grounded (grounds services) call (fun _ _ _ => True) known none :=
  (Grounded.of_writes changes_id (fun _ _ hf hg => hf.comp hg)
    (fun _ _ _ hQuiet => fair_of_quiet hQuiet) h fun _ hNo => by cases hNo).mono
    fun _ _ _ _ => trivial

/-! ## Sign-in -/

theorem grounded_createSession {userId : Nat} {metadata : SessionRequestMetadata}
    {drawn : DrawnSession} {rememberMe : Bool} {expected : Option String}
    (hStart : MayStart services call known userId) :
    (createSession services userId metadata drawn rememberMe expected).Grounded
      (grounds services) call (fun _ _ _ => True) known none := by
  have hWrites : (createSession services userId metadata drawn rememberMe expected).Writes
    (Changes (fun _ _ => False) (· = userId))
      fun _ => False := by
    refine Writes.readClock.bind fun now =>
      Writes.transaction (Writes.bind ?_ fun _ => ?_) fun _ => trivial
    · cases expected with
      | none => trivial
      | some _ => exact Writes.bind (Writes.change fun _ => changes_id) fun _ => Writes.check
    refine (Writes.query changes_id).bind fun user => ?_
    cases user with
    | none => trivial
    | some user =>
      refine Writes.bind (Writes.bind (Writes.change fun _ => changes_if
        (changes_insertSession rfl)) fun _ => Writes.check) fun _ => ?_
      exact Writes.bind (Writes.bind (Writes.change fun _ => changes_if
        (changes_of_same fun _ => rfl)) fun _ => Writes.check) fun _ => trivial
  refine (Grounded.of_writes changes_id (fun _ _ hf hg => hf.comp hg)
    (fun known' progress hKnown hChange => ?_) hWrites
    fun _ hNo => by cases hNo).mono fun _ _ _ _ => trivial
  refine hChange.fair (fun _ _ hNo => hNo.elim) fun user hUser => ?_
  rw [hUser]
  exact hStart.mono hKnown

theorem grounded_login {email password : String} {metadata : SessionRequestMetadata}
    {drawn : DrawnSession} {rememberMe : Bool}
    (hCall : call = .login email password metadata drawn rememberMe) :
    (login services email password metadata drawn rememberMe).Grounded (grounds services) call
      (fun _ _ _ => True) known none := by
  refine fun v _ => ⟨fair_of_quiet changes_id, ?_⟩
  dsimp only [bind_done, bind_eq, pure_eq]
  split
  · trivial
  next user hUser =>
  split
  · trivial
  next passwordHash hPassword =>
  split
  swap
  · trivial
  next hCompared =>
  split
  swap
  · trivial
  next hVerified =>
  refine Grounded.bind ((grounded_createSession ?_).mono fun known tx result _ => ?_)
  · exact .password hCall (.inr rfl) hUser rfl hVerified hPassword hCompared
  · split <;> trivial

/-! ## Refresh -/

/-- The context is of the session that the cookie names, and the credential in the cookie is that of
its token. -/
structure Validated (services : Services) (cookie : Option String) (known : Database → Prop)
    (context : RefreshContext) : Prop where
  parsed : parseRefreshToken cookie = some context.parsedToken
  session : context.session.id = context.parsedToken.sessionId
  token : ∃ db, known db ∧ db.tokens.get context.parsedToken.tokenId = some context.refreshToken
  verified : services.verifyRefreshCredential context.parsedToken.refreshCredential
    context.credentialHash = true

theorem Validated.mono {cookie : Option String} {known' : Database → Prop}
    {context : RefreshContext} (h : Validated services cookie known context)
    (hKnown : ∀ db, known db → known' db) : Validated services cookie known' context :=
  { h with token := h.token.imp fun db ⟨hDb, hGet⟩ => ⟨hKnown db hDb, hGet⟩ }

theorem grounded_assertRefreshAllowed {session : Session} {now : Nat} :
    (assertRefreshAllowed session now).Grounded (grounds services) call (fun known' tx _ =>
      tx = none ∧ ∀ db, known db → known' db)
      known none := by
  unfold assertRefreshAllowed
  split
  · exact ⟨rfl, fun _ hDb => hDb⟩
  split
  · refine fun v _ => ⟨fair_of_quiet quiet_revokeSessions, ?_⟩
    dsimp only [bind_done]
    split <;> exact ⟨rfl, fun _ => .inl⟩
  · exact ⟨rfl, fun _ hDb => hDb⟩

theorem grounded_loadAndValidate {cookie : Option String} {now : Nat} :
    (loadAndValidateRefreshContext services cookie now).Grounded (grounds services) call
      (fun known tx result => tx = none ∧ ∀ context,
        result = .ok context → Validated services cookie known context) known none := by
  have hRefused {known' : Database → Prop} {error : Failure} : none =
    (none : Option (Progress auth)) ∧
      ∀ context, Except.error error = .ok context → Validated services cookie known' context :=
        ⟨rfl, fun _ hNo => by cases hNo⟩
  unfold loadAndValidateRefreshContext
  split
  · exact hRefused
  next parsedToken hParsed =>
  refine fun v₁ _ => ⟨fair_of_quiet changes_id, fun v₂ _ => ⟨fair_of_quiet changes_id, ?_⟩⟩
  dsimp only [bind_done]
  cases hSession : v₂.db.sessions.get parsedToken.sessionId with
  | none => exact hRefused
  | some session =>
    refine Grounded.bind (grounded_assertRefreshAllowed.mono fun known' tx result ⟨hTx, hKnown⟩ =>
      ?_)
    subst hTx
    cases result with
    | error error => exact hRefused
    | ok _ =>
      cases hToken : v₁.db.tokens.get parsedToken.tokenId with
      | none => exact hRefused
      | some refreshToken =>
        dsimp only
        split
        next hValid =>
          refine ⟨rfl, fun context hContext => ?_⟩
          cases hContext
          exact ⟨hParsed, Table.key_of_get hSession,
            ⟨v₁.db, hKnown _ (.inl (.inr rfl)), hToken⟩, hValid.2⟩
        next => exact hRefused

theorem grounded_handleConsumed {context : RefreshContext} {now : Nat} :
    (handleConsumedRefreshToken context now).Grounded (grounds services) call (fun known' tx _ =>
      tx = none ∧ ∀ db, known db → known' db)
      known none := by
  unfold handleConsumedRefreshToken
  split
  · exact ⟨rfl, fun _ hDb => hDb⟩
  split
  · exact ⟨rfl, fun _ hDb => hDb⟩
  · exact fun v _ => ⟨fair_of_quiet quiet_revokeSessions, rfl, fun _ => .inl⟩

theorem grounded_rotate {context : RefreshContext} {nextCredential : IssuedRefreshCredential}
    {metadata : SessionRequestMetadata} {now : Nat}
    (hRotate : MayRotate services call known context.session.id nextCredential.hash) :
    (rotateRefreshCredentialAtomically context nextCredential metadata now).Grounded
      (grounds services) call (fun _ _ _ => True) known none := by
  have hWrites : (rotateRefreshCredentialAtomically context nextCredential metadata now).Writes
      (Changes (fun id hash => id = context.session.id ∧ hash = nextCredential.hash) fun _ => False)
        fun _ => False := by
    refine Writes.transaction (Writes.bind (Writes.change fun v => ?_) fun _ =>
      Writes.check.bind fun _ =>
      Writes.bind (Writes.change fun _ => changes_of_same fun _ => rfl) fun _ =>
        Writes.check.bind fun _ =>
      Writes.bind (Writes.bind (Writes.change fun _ => changes_if (changes_of_same fun _ => rfl))
        fun _ => Writes.check) fun _ => trivial)
      fun _ => trivial
    refine changes_modify (Session.rotate_id nextCredential.hash now metadata)
      (fun _ => rfl) fun _ => .inr fun id hMem => ⟨?_, rfl⟩
    obtain ⟨s, hS, rfl⟩ := List.mem_map.mp hMem
    exact (of_decide_eq_true (Table.mem_select.mp hS).2).1
  refine (Grounded.of_writes changes_id (fun _ _ hf hg => hf.comp hg)
    (fun known' progress hKnown hChange => ?_) hWrites
    fun _ hNo => by cases hNo).mono fun _ _ _ _ => trivial
  refine hChange.fair ?_ fun _ hNo => hNo.elim
  rintro _ _ ⟨rfl, rfl⟩
  obtain ⟨now, cookie, metadata, drawn, parsed, db, t, hCall, hParsed, hId, hDb, hRest⟩ :=
    hRotate.verified
  exact ⟨now, cookie, metadata, drawn, parsed, db, t, hCall, hParsed, hId, hKnown db hDb, hRest⟩

theorem grounded_refreshSession {now : Nat} {cookie : Option String}
    {metadata : SessionRequestMetadata} {nextCredential : IssuedRefreshCredential}
    (hCall : call = .refreshSession now cookie metadata nextCredential) :
    (refreshSession services now cookie metadata nextCredential).Grounded (grounds services) call
      (fun _ _ _ => True) known none := by
  refine Grounded.bind (grounded_loadAndValidate.mono fun known₁ tx₁ result ⟨hTx₁, hValidated⟩ =>
    ?_)
  subst hTx₁
  cases result with
  | error error => trivial
  | ok context =>
    refine Grounded.bind (grounded_handleConsumed.mono fun known₂ tx₂ result ⟨hTx₂, hKnown⟩ => ?_)
    subst hTx₂
    cases result with
    | error error => trivial
    | ok _ =>
      obtain ⟨hParsed, hSession, ⟨db, hDb, hToken⟩, hVerified⟩ :=
        (hValidated context rfl).mono hKnown
      refine Grounded.bind ((grounded_rotate ?_).mono fun known₃ tx₃ result _ => ?_)
      · exact ⟨now, cookie, metadata, nextCredential, context.parsedToken, db, context.refreshToken,
          hCall, hParsed, hSession.symm, hDb,
          hToken, hVerified, rfl⟩
      · split <;> trivial

/-! ## The other calls -/

theorem writes_logout {cookie : Option String} :
    (logout services cookie).Writes Quiet fun _ => False := by
  unfold logout
  split
  · trivial
  refine (Writes.query changes_id).bind fun session => ?_
  split
  · trivial
  split
  · refine Writes.readClock.bind fun revokedAt =>
      Writes.bind (Writes.change fun _ => quiet_revokeSessions) fun result => ?_
    cases result <;> trivial
  · trivial

theorem writes_logoutAll {userId : Nat} : (logoutAll userId).Writes Quiet fun _ => False :=
  Writes.readClock.bind fun _ =>
    Writes.bind (Writes.change fun _ => quiet_revokeSessions) fun _ => trivial

theorem quiet_of_same {change : Database → Database}
    (h : ∀ db, (change db).sessions = db.sessions) : Quiet change := changes_of_same h

theorem writes_createAuthToken {new : AuthToken} :
    (createAuthToken new).Writes Quiet fun _ => False := by
  refine Writes.bind (Writes.change fun v => quiet_of_same fun db => ?_) fun clash => ?_
  · split <;> rfl
  · cases clash <;> trivial

theorem writes_requestPasswordReset {email : String} {drawn : DrawnAuthToken} :
    (requestPasswordReset services email drawn).Writes Quiet fun _ => False := by
  refine (Writes.query changes_id).bind fun user => ?_
  cases user with
  | none => trivial
  | some user =>
    dsimp only
    split
    · refine Writes.bind (Writes.transaction (Writes.bind (Writes.bind Writes.readClock fun _ =>
        Writes.bind (Writes.change fun _ => changes_id)
        fun _ => Writes.bind (Writes.change fun _ => quiet_of_same fun _ => rfl) fun _ =>
          Writes.bind writes_createAuthToken fun _ => trivial)
        fun _ => trivial) fun _ => trivial) fun _ => trivial
    · trivial

theorem writes_resetPassword {token passwordHash : String} :
    (resetPassword services token passwordHash).Writes Quiet fun _ => False := by
  refine (Writes.query changes_id).bind fun found => Writes.readClock.bind fun calledAt => ?_
  dsimp only
  split
  · trivial
  refine Writes.transaction (Writes.readClock.bind fun now => (Writes.query changes_id).bind
    fun current => ?_) fun _ => trivial
  split
  · trivial
  refine Writes.bind (Writes.change fun _ => quiet_of_same fun _ => rfl) fun consumed => ?_
  split
  · trivial
  exact Writes.bind (Writes.bind (Writes.change fun _ => quiet_of_same fun _ => rfl)
    fun _ => Writes.check) fun _ =>
    Writes.bind (Writes.change fun _ => quiet_revokeSessions) fun _ => trivial

theorem writes_deleteExpiredData : (deleteExpiredData).Writes Quiet fun _ => False :=
  Writes.bind Writes.readClock fun _ =>
    Writes.bind (Writes.change fun _ => quiet_of_same fun _ => rfl) fun _ =>
    Writes.bind (Writes.change fun _ => quiet_deleteSessions) fun _ => trivial

/-! ## The system -/

theorem grounded_system : (grounds services).KeptBy (system services) := by
  intro call s ext script hProgram
  unfold system at hProgram
  split at hProgram <;> cases hProgram
  have hOutcome {β : Type} {script : Script auth β} {outcome : β → Outcome}
      (h : script.Grounded (grounds services) call (fun _ _ _ => True) (fun _ => False) none) :
      (script.bind fun a => .done (outcome a)).Grounded (grounds services) call (fun _ _ _ => True)
        (fun _ => False) none :=
    Grounded.bind (h.mono fun _ _ _ _ => trivial)
  cases call with
  | createSession userId metadata drawn rememberMe =>
    exact hOutcome (grounded_createSession (.trusted rfl))
  | login email password metadata drawn rememberMe => exact hOutcome (grounded_login rfl)
  | refreshSession now cookie metadata nextCredential =>
    exact hOutcome (grounded_refreshSession rfl)
  | logout cookie => exact hOutcome (grounded_of_writes writes_logout)
  | logoutAll userId => exact hOutcome (grounded_of_writes writes_logoutAll)
  | requestPasswordReset email drawn =>
    exact hOutcome (grounded_of_writes writes_requestPasswordReset)
  | resetPassword token passwordHash => exact hOutcome (grounded_of_writes writes_resetPassword)
  | deleteExpiredData => exact hOutcome (grounded_of_writes writes_deleteExpiredData)

end Pixaeron.Auth.Origins
