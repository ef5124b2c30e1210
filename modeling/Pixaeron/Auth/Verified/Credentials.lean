import Pixaeron.Transactions.Grounds
import Pixaeron.Auth.OneTimeTokens
import Pixaeron.Auth.GoogleAccounts

/-! # Verified: who changes a user

A call changes the row of a user who is there only when it presents a one-time token of that user,
and it puts in a token for the recovery of a password only for the user whose address it has been
given. -/

namespace Pixaeron.Auth.Credentials

open Transactions Transactions.Script OneTime

variable {services : Services} {call : AccountCall} {known : Database → Prop}
  {p : Progress auth} {α : Type}

/-- The kind of the tokens that a call accepts. -/
def purpose : AccountCall → Option AuthTokenType
  | .verifyEmail _ => some .emailVerification
  | .resetPassword _ _ => some .passwordReset
  | _ => none

/-- What an accepted token makes of its user. -/
def grant : AccountCall → User → User
  | .verifyEmail _, u => u.verifyEmail
  | .resetPassword _ passwordHash, u => u.setPassword passwordHash
  | _, u => u

/-- The call has found the token that it presents, of this user and not expired, and has gone
through with it. -/
structure Presents (services : Services) (call : AccountCall) (known : Database → Prop)
    (p : Progress auth) (userId : Nat) (found : AuthToken) : Prop where
  stored : ∃ db, known db ∧ found ∈ db.authTokens.rows
  presented : presentedHash services call = some found.tokenHash
  owner : found.userId = userId
  kind : purpose call = some found.type
  unexpired : p.startedAt < found.expiresAt
  granted : ∃ q ∈ p.reads, grants q.1 = true

/-- The token is not for the recovery of a password, or it is for the user whose address the call
has been given. -/
inductive Mailed (services : Services) (call : AccountCall) (known : Database → Prop)
    (t : AuthToken) : Prop
  | verification : t.type = .emailVerification → Mailed services call known t
  | recovery {email : String} {drawn : DrawnAuthToken} {db : Database}
      {u : User} : call = .requestPasswordReset email drawn →
    known db → db.userByEmail (services.normalizeEmail email) = some u → t.userId = u.id →
    t.tokenHash = services.digest drawn.token → Mailed services call known t

/-- What a commit does to users who are there, and where the one-time tokens come from. -/
structure Fair (services : Services) (call : AccountCall) (known : Database → Prop)
    (p : Progress auth) : Prop where
  users : ∀ db id u, db.users.get id = some u → (p.change db).users.get id = some u ∨
    (p.change db).users.get id = some (grant call u) ∧
      ∃ found, Presents services call known p id found
  tokens : ∀ db, ∀ t' ∈ (p.change db).authTokens.rows, (∃ t ∈ db.authTokens.rows, Ages t t') ∨
    Mailed services call known t'

def grounds (services : Services) : Grounds auth AccountCall := Fair services

/-! ## Changes that need no grounds -/

/-- The users who are there stay as they are. -/
def KeepsUsers (change : Database → Database) : Prop :=
  ∀ db id u, db.users.get id = some u → (change db).users.get id = some u

/-- The one-time tokens are older ones or for the verification of an address. -/
def KeepsTokens (change : Database → Database) : Prop :=
  ∀ db, ∀ t' ∈ (change db).authTokens.rows, (∃ t ∈ db.authTokens.rows, Ages t t') ∨
    t'.type = .emailVerification

structure Quiet (change : Database → Database) : Prop where
  users : KeepsUsers change
  tokens : KeepsTokens change

theorem Ages.trans {t t' t'' : AuthToken} (h : Ages t t') (h' : Ages t' t'') : Ages t t'' := by
  obtain rfl | ⟨now, rfl⟩ := h'
  · exact h
  · obtain rfl | ⟨now', rfl⟩ := h <;> exact .inr ⟨now, rfl⟩

theorem quiet_id : Quiet id := ⟨fun _ _ _ hGet => hGet, fun _ t ht => .inl ⟨t, ht, .inl rfl⟩⟩

theorem KeepsTokens.comp {f g : Database → Database} (hf : KeepsTokens f)
    (hg : KeepsTokens g) : KeepsTokens (f ∘ g) := by
  intro db t'' ht''
  rcases hf (g db) t'' ht'' with ⟨t', ht', hAges'⟩ | hNew
  · rcases hg db t' ht' with ⟨t, ht, hAges⟩ | hNew
    · exact .inl ⟨t, ht, Ages.trans hAges hAges'⟩
    · exact .inr (hAges'.owner_eq.2.trans hNew)
  · exact .inr hNew

theorem Quiet.comp {f g : Database → Database} (hf : Quiet f) (hg : Quiet g) : Quiet (f ∘ g) where
  users db id u hGet := hf.users _ id u (hg.users db id u hGet)
  tokens := hf.tokens.comp hg.tokens

theorem quiet_of_same {change : Database → Database} (hUsers : KeepsUsers change)
    (hTokens : ∀ db, (change db).authTokens = db.authTokens) : Quiet change :=
  ⟨hUsers, fun db t ht => .inl ⟨t, hTokens db ▸ ht, .inl rfl⟩⟩

theorem quiet_aside {change : Database → Database}
    (h : ∀ db, (change db).users = db.users ∧ (change db).authTokens = db.authTokens) :
    Quiet change :=
  quiet_of_same (fun db id u hGet => by rw [(h db).1]; exact hGet) fun db => (h db).2

theorem quiet_insertUser {new : User} : Quiet fun db => db.insertUser new := by
  refine quiet_of_same (fun db id u hGet => ?_) fun _ => rfl
  show (db.users.insert new).get id = some u
  rw [Table.get_insert, hGet, Option.some_or]

theorem quiet_if {condition : Prop} [Decidable condition] {change : Database → Database}
    (h : Quiet change) :
    Quiet fun db => if condition then change db else db := by
  by_cases hCondition : condition
  · simp only [if_pos hCondition]
    exact h
  · simp only [if_neg hCondition]
    exact quiet_id

theorem quiet_consumeAuthTokens {ids : List String} {now : Nat} :
    Quiet fun db => db.consumeAuthTokens ids now := by
  refine ⟨fun _ _ _ hGet => hGet, fun db t' ht' => .inl ?_⟩
  rw [Database.consumeAuthTokens, Table.rows_modify] at ht'
  obtain ⟨t, ht, rfl⟩ := List.mem_map.mp ht'
  refine ⟨t, ht, ?_⟩
  split
  · exact .inr ⟨now, rfl⟩
  · exact .inl rfl

theorem mem_insertAuthToken {db : Database} {new t' : AuthToken}
    (h : t' ∈ (db.insertAuthToken new).authTokens.rows) :
    t' ∈ db.authTokens.rows ∨ t' = new := by
  have hGet : (db.authTokens.get t'.id).or (if new.id = t'.id then some new else none) = some t' :=
    Table.get_insert.symm.trans (Table.get_of_mem h)
  rcases Option.or_eq_some_iff.mp hGet with hOld | ⟨_, hNew⟩
  · exact .inl (Table.mem_of_get hOld)
  · split at hNew <;> cases hNew
    exact .inr rfl

theorem quiet_insertAuthToken {new : AuthToken} (hType : new.type = .emailVerification) :
    Quiet fun db => db.insertAuthToken new := by
  refine ⟨fun _ _ _ hGet => hGet, fun db t' ht' => ?_⟩
  rcases mem_insertAuthToken ht' with hOld | rfl
  · exact .inl ⟨t', hOld, .inl rfl⟩
  · exact .inr hType

theorem quiet_deleteAuthTokens {q : AuthToken → Bool} : Quiet fun db => db.deleteAuthTokens q := by
  refine ⟨fun _ _ _ hGet => hGet, fun db t ht => .inl ⟨t, ?_, .inl rfl⟩⟩
  have hGet : (db.authTokens.get t.id).filter (fun r => !q r) = some t :=
    Table.get_delete.symm.trans (Table.get_of_mem ht)
  exact Table.mem_of_get (Option.filter_eq_some_iff.mp hGet).1

theorem Quiet.fair (h : Quiet p.change) : Fair services call known p where
  users db id u hGet := .inl (h.users db id u hGet)
  tokens db t' ht' := (h.tokens db t' ht').imp_right .verification

theorem grounded_of_writes {script : Script auth α} (h : script.Writes Quiet fun _ => False) :
    script.Grounded (grounds services) call (fun _ _ _ => True) known none :=
  (Grounded.of_writes quiet_id (fun _ _ hf hg => hf.comp hg)
    (fun _ _ _ hQuiet => hQuiet.fair) h fun _ hNo => by cases hNo).mono
    fun _ _ _ _ => trivial

/-! ## Issues -/

theorem writes_createUser {new : User} : (createUser new).Writes Quiet fun _ => False :=
  Writes.bind (Writes.change fun _ => quiet_if quiet_insertUser) fun clash => by
    cases clash <;> trivial

theorem writes_createAuthToken {new : AuthToken} (hType : new.type = .emailVerification) :
    (createAuthToken new).Writes Quiet fun _ => False :=
  Writes.bind (Writes.change fun _ => quiet_if (quiet_insertAuthToken hType)) fun clash => by
    cases clash <;> trivial

theorem writes_issueVerification {userId : Nat} {drawn : DrawnAuthToken} :
    (issueInTransaction services userId .emailVerification drawn).Writes Quiet fun _ => False :=
  Writes.bind Writes.readClock fun _ => Writes.bind (Writes.change fun _ => quiet_id) fun _ =>
    Writes.bind (Writes.change fun _ => quiet_consumeAuthTokens) fun _ =>
      Writes.bind (writes_createAuthToken rfl) fun _ => trivial

theorem writes_register {input : RegisterInput} {passwordHash : String} {user : DrawnUser}
    {token : DrawnAuthToken} :
    (register services input passwordHash user token).Writes Quiet fun _ => False := by
  unfold register
  dsimp only
  split
  · trivial
  refine Writes.bind (Writes.query quiet_id) fun existingUser => ?_
  cases existingUser with
  | some _ => trivial
  | none =>
    refine Writes.transaction (Writes.bind writes_createUser fun _ =>
      Writes.bind writes_issueVerification fun _ => trivial)
      fun error => ?_
    split <;> trivial

theorem writes_resendEmailVerification {email : String} {drawn : DrawnAuthToken} :
    (resendEmailVerification services email drawn).Writes Quiet fun _ => False := by
  refine Writes.bind (Writes.query quiet_id) fun user => ?_
  cases user with
  | none => trivial
  | some user =>
    dsimp only
    split
    · trivial
    · exact Writes.transaction (Writes.bind writes_issueVerification fun _ => trivial) fun _ =>
        trivial

theorem Quiet.fair_insert {change : Database → Database} {new : AuthToken} {condition : Prop}
    [Decidable condition] {startedAt : Nat} {reads : List (Statement × Database)} (h : Quiet change)
    (hMailed : Mailed services call known new) :
    Fair services call known ⟨startedAt, reads,
      (fun db => if condition then db.insertAuthToken new else db) ∘ change⟩ where
  users db id u hGet := by
    refine .inl ?_
    show (if condition then (change db).insertAuthToken new else change db).users.get id = some u
    split <;> exact h.users db id u hGet
  tokens db t' ht' := by
    have hRow : t' ∈ (change db).authTokens.rows ∨ t' = new := by
      change t' ∈ (if condition then (change db).insertAuthToken new
        else change db).authTokens.rows at ht'
      split at ht'
      · exact mem_insertAuthToken ht'
      · exact .inl ht'
    rcases hRow with hOld | rfl
    · exact (h.tokens db t' hOld).imp_right .verification
    · exact .inr hMailed

theorem grounded_requestPasswordReset {email : String} {drawn : DrawnAuthToken}
    (hCall : call = .requestPasswordReset email drawn) :
    (requestPasswordReset services email drawn).Grounded (grounds services) call
      (fun _ _ _ => True) known none := by
  unfold requestPasswordReset issueInTransaction createAuthToken
  refine fun v _ => ⟨Quiet.fair quiet_id, ?_⟩
  dsimp only [bind_done, bind_eq]
  split
  swap
  · trivial
  next u hUser =>
  split
  swap
  · trivial
  refine Grounded.bind (Grounded.transaction (fun _ => trivial) fun t => ?_)
  intro now _ v₁ v₂ v₃
  dsimp only [bind_done, bind_eq, pure_eq]
  split
  swap
  · trivial
  next hNone =>
  intro progress hProgress
  cases hProgress
  refine ⟨Quiet.fair_insert (quiet_consumeAuthTokens.comp (quiet_id.comp quiet_id)) ?_, trivial⟩
  exact .recovery hCall (.inl (.inl (.inl (.inr rfl)))) hUser rfl rfl

/-! ## Use of a token -/

/-- The change grants one user what the call is for, and nothing to others. -/
structure Granting (call : AccountCall) (userId : Nat) (change : Database → Database) : Prop where
  users : ∀ db id u, db.users.get id = some u → (change db).users.get id = some u ∨
    id = userId ∧ (change db).users.get id = some (grant call u)
  tokens : KeepsTokens change

theorem Granting.comp_quiet {userId : Nat} {f g : Database → Database} (hf : Granting call userId f)
    (hg : Quiet g) :
    Granting call userId (f ∘ g) where
  users db id u hGet := hf.users _ id u (hg.users db id u hGet)
  tokens := hf.tokens.comp hg.tokens

theorem Quiet.granting_comp {userId : Nat} {f g : Database → Database} (hf : Quiet f)
    (hg : Granting call userId g) :
    Granting call userId (f ∘ g) where
  users db id u hGet := (hg.users db id u hGet).imp (hf.users _ id u) fun ⟨hId, hGrant⟩ =>
    ⟨hId, hf.users _ id _ hGrant⟩
  tokens := hf.tokens.comp hg.tokens

theorem Granting.fair {userId : Nat} (found : AuthToken) (h : Granting call userId p.change)
    (hPresents : Presents services call known p userId found) : Fair services call known p where
  users db id u hGet := by
    rcases h.users db id u hGet with hSame | ⟨rfl, hGrant⟩
    · exact .inl hSame
    · exact .inr ⟨hGrant, found, hPresents⟩
  tokens db t' ht' := (h.tokens db t' ht').imp_right .verification

theorem granting_modify {userId : Nat} {change : Database → Database} {f : User → User}
    (hId : ∀ u, (f u).id = u.id) (hChange : ∀ db,
      change db = { db with users := db.users.modify [userId] f hId })
    (hGrant : ∀ u, f u = grant call u) :
    Granting call userId change where
  users db id u hGet := by
    rw [hChange]
    show (db.users.modify [userId] f hId).get id = some u ∨ id = userId ∧
      (db.users.modify [userId] f hId).get id = some (grant call u)
    rw [Table.get_modify, hGet, Option.map_some]
    by_cases hMine : id = userId
    · subst hMine
      exact .inr ⟨rfl, by rw [if_pos (List.mem_singleton_self _), hGrant]⟩
    · exact .inl (by rw [if_neg (by simpa using hMine)])
  tokens db t ht := .inl ⟨t, by rw [hChange] at ht; exact ht, .inl rfl⟩

theorem token_of_find {db : Database} {token : String} {type : AuthTokenType} {found : AuthToken}
    (h : (db.authTokens.rows.find? fun t => t.tokenHash = services.digest token ∧ t.type = type) =
      some found) :
    found ∈ db.authTokens.rows ∧ found.tokenHash = services.digest token ∧ found.type = type := by
  have hKey := List.find?_some h
  exact ⟨List.mem_of_find?_eq_some h, of_decide_eq_true hKey⟩

theorem grounded_verifyEmail {token : String} (hCall : call = .verifyEmail token) :
    (verifyEmail services token).Grounded (grounds services) call
      (fun _ _ _ => True) known none := by
  have hFree {known : Database → Prop} {progress : Progress auth} (h : Quiet progress.change) :
      grounds services call known progress ∧ True := ⟨h.fair, trivial⟩
  unfold verifyEmail verifyInTransaction findAuthTokenWithUser
  refine Grounded.transaction (fun _ => trivial) fun t => ?_
  intro now hTime v
  have hBegun : t ≤ now := hTime _ rfl
  dsimp only [bind_done, bind_eq, pure_eq]
  split
  · intro progress hProgress
    cases hProgress
    exact hFree (quiet_id.comp quiet_id)
  next authToken user hFound =>
  obtain ⟨found, hFind, hPair⟩ := Option.map_eq_some_iff.mp hFound
  cases hPair
  obtain ⟨hMem, hHash, hType⟩ := token_of_find hFind
  split
  · intro v' progress hProgress
    cases hProgress
    exact hFree (quiet_consumeAuthTokens.comp (quiet_id.comp quiet_id))
  split
  · intro progress hProgress
    cases hProgress
    exact hFree (quiet_id.comp quiet_id)
  split
  · intro progress hProgress
    cases hProgress
    exact hFree (quiet_id.comp quiet_id)
  next hExpired =>
  intro v'
  dsimp only [bind_done, bind_eq, pure_eq]
  split
  · intro v'' progress hProgress
    cases hProgress
    exact hFree (quiet_id.comp (quiet_consumeAuthTokens.comp (quiet_id.comp quiet_id)))
  intro v''
  dsimp only [bind_done, bind_eq, pure_eq, require]
  split
  swap
  · trivial
  intro progress hProgress
  cases hProgress
  have hGranting : Granting call authToken.userId fun db => db.verifyEmail authToken.userId :=
    granting_modify User.verifyEmail_id (fun _ => rfl) fun _ => by rw [hCall]; rfl
  refine ⟨(hGranting.comp_quiet (quiet_consumeAuthTokens.comp (quiet_id.comp quiet_id))).fair
    authToken ?_, trivial⟩
  exact {
    stored := ⟨v.db, .inl (.inl (.inr ⟨rfl, rfl⟩)), hMem⟩
    presented := by rw [hCall, hHash]; rfl
    owner := rfl
    kind := by rw [hCall, hType]; rfl
    unexpired := hBegun.trans_lt (not_le.mp hExpired)
    granted := ⟨(.setEmailVerified, v''.db), by simp [Progress.ran], rfl⟩ }

theorem classified_of_ok {authToken : Option AuthToken} {now : Nat} {current : AuthToken}
    (h : classifyResetToken authToken now = .ok current) :
    authToken = some current ∧ now < current.expiresAt := by
  unfold classifyResetToken at h
  split at h
  · cases h
  split at h
  · cases h
  split at h
  · cases h
  next hExpired =>
  cases h
  exact ⟨rfl, not_le.mp hExpired⟩

theorem grounded_resetPassword {token passwordHash : String}
    (hCall : call = .resetPassword token passwordHash) :
    (resetPassword services token passwordHash).Grounded (grounds services) call
      (fun _ _ _ => True) known none := by
  unfold resetPassword findAuthToken
  refine fun v₀ _ => ⟨Quiet.fair quiet_id, fun calledAt _ => ?_⟩
  dsimp only [bind_done, bind_eq, pure_eq]
  split
  · trivial
  refine Grounded.transaction (fun _ => trivial) fun t => ?_
  intro now hTime v
  have hBegun : t ≤ now := hTime _ rfl
  dsimp only [bind_done, bind_eq, pure_eq]
  split
  · intro progress hProgress
    cases hProgress
    exact ⟨(quiet_id.comp quiet_id).fair, trivial⟩
  next current hCurrent =>
  obtain ⟨hFind, hUnexpired⟩ := classified_of_ok hCurrent
  obtain ⟨hMem, hHash, hType⟩ := token_of_find hFind
  intro v'
  dsimp only [bind_done, bind_eq, pure_eq]
  split
  · intro progress hProgress
    cases hProgress
    exact ⟨(quiet_consumeAuthTokens.comp (quiet_id.comp quiet_id)).fair, trivial⟩
  intro v''
  dsimp only [bind_done, bind_eq, pure_eq, require]
  split
  swap
  · trivial
  intro v₃ progress hProgress
  cases hProgress
  have hGranting : Granting call current.userId fun db =>
    db.setPassword current.userId passwordHash :=
    granting_modify (User.setPassword_id passwordHash) (fun _ => rfl) fun _ => by rw [hCall]; rfl
  have hRevoking : Quiet fun db : Database =>
    db.revokeSessions ((v₃.db.sessions.select fun s => s.userId = current.userId ∧
      s.revokedAt = none).map Session.id) now .passwordChanged := quiet_aside fun _ => ⟨rfl, rfl⟩
  refine ⟨(hRevoking.granting_comp (hGranting.comp_quiet
    (quiet_consumeAuthTokens.comp (quiet_id.comp quiet_id)))).fair current ?_,
    trivial⟩
  exact {
    stored := ⟨v.db, .inl (.inl (.inl (.inr ⟨rfl, rfl⟩))), hMem⟩
    presented := by rw [hCall, hHash]; rfl
    owner := rfl
    kind := by rw [hCall, hType]; rfl
    unexpired := hBegun.trans_lt hUnexpired
    granted := ⟨(.setPassword, v''.db), by simp [Progress.ran], rfl⟩ }

/-! ## The other calls -/

theorem writes_createAccount {new : Account} : (createAccount new).Writes Quiet fun _ => False :=
  Writes.bind (Writes.change fun _ => quiet_if (quiet_aside fun _ => ⟨rfl, rfl⟩)) fun _ =>
    Writes.check

theorem writes_googleUser {profile : GoogleUserProfile} {consent : LegalConsent}
    {drawn : DrawnUser} :
    (googleUser profile consent drawn).Writes Quiet fun _ => False := by
  refine Writes.transaction (Writes.bind (Writes.bind (Writes.query quiet_id) fun account => ?_)
    fun _ => trivial) fun error => ?_
  · cases account with
    | some account => trivial
    | none =>
      exact (Writes.query quiet_id).bind fun _ => Writes.check.bind fun _ =>
        Writes.check.bind fun _ =>
        writes_createUser.bind fun _ => writes_createAccount.bind fun _ => trivial
  · split
    · refine (Writes.query quiet_id).bind fun account => ?_
      cases account with
      | some account => trivial
      | none =>
        refine (Writes.query quiet_id).bind fun existingUser => ?_
        split <;> trivial
    · trivial

theorem writes_createSession {userId : Nat} {metadata : SessionRequestMetadata}
    {drawn : DrawnSession} {rememberMe : Bool} :
    (createSession services userId metadata drawn rememberMe none).Writes Quiet fun _ => False := by
  refine Writes.readClock.bind fun now => Writes.transaction ?_ fun _ => trivial
  refine Writes.bind (trivial : (checkPassword userId none).Writes Quiet fun _ => False) fun _ => ?_
  refine (Writes.query quiet_id).bind fun user => ?_
  cases user with
  | none => trivial
  | some user =>
    refine Writes.bind
      (Writes.bind (Writes.change fun _ =>
      (quiet_aside fun db => by dsimp only; split <;> exact ⟨rfl, rfl⟩)) fun _ => Writes.check)
      fun _ => ?_
    exact Writes.bind
      (Writes.bind (Writes.change fun _ =>
      (quiet_aside fun db => by dsimp only; split <;> exact ⟨rfl, rfl⟩)) fun _ => Writes.check)
      fun _ => trivial

theorem writes_googleLogin {payload : GoogleTokenPayload} {consent : LegalConsent}
    {metadata : SessionRequestMetadata} {user : DrawnUser} {session : DrawnSession}
    {rememberMe : Bool} :
    (googleLogin services payload consent metadata user session rememberMe).Writes Quiet fun _ =>
      False := by
  unfold googleLogin
  split
  · trivial
  split
  · trivial
  · refine writes_googleUser.bind fun found => ?_
    cases found with
    | error error => trivial
    | ok userId => exact writes_createSession

theorem writes_deleteExpiredData : (deleteExpiredData).Writes Quiet fun _ => False :=
  Writes.bind Writes.readClock fun _ =>
    Writes.bind (Writes.change fun _ => quiet_deleteAuthTokens) fun _ =>
    Writes.bind (Writes.change fun _ => quiet_aside fun _ => ⟨rfl, rfl⟩) fun _ => trivial

/-! ## The system -/

theorem grounded_accounts : (grounds services).KeptBy (accountSystem services) := by
  intro call s ext script hProgram
  cases hProgram
  have hOutcome {β : Type} {script : Script auth β} {outcome : β → AccountOutcome}
      (h : script.Grounded (grounds services) call (fun _ _ _ => True) (fun _ => False) none) :
      (script.bind fun a => .done (outcome a)).Grounded (grounds services) call (fun _ _ _ => True)
        (fun _ => False) none :=
    Grounded.bind (h.mono fun _ _ _ _ => trivial)
  cases call with
  | register input passwordHash user token => exact hOutcome (grounded_of_writes writes_register)
  | resendEmailVerification email drawn =>
    exact hOutcome (grounded_of_writes writes_resendEmailVerification)
  | requestPasswordReset email drawn => exact hOutcome (grounded_requestPasswordReset rfl)
  | verifyEmail token => exact hOutcome (grounded_verifyEmail rfl)
  | resetPassword token passwordHash => exact hOutcome (grounded_resetPassword rfl)
  | deleteExpiredData => exact hOutcome (grounded_of_writes writes_deleteExpiredData)
  | googleLogin payload consent metadata user session rememberMe =>
    exact hOutcome (grounded_of_writes writes_googleLogin)

end Pixaeron.Auth.Credentials
