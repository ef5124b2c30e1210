import Pixaeron.Transactions.Following
import Pixaeron.Transactions.Rules
import Pixaeron.Auth.GoogleAccounts

/-! # Verified: users and their accounts

A new user and the account are checked against rows that may still be put in by others, so the
locks of the index entries have to keep them away until the commit.
-/

namespace Pixaeron.Auth.Google

open Transactions Transactions.Script

variable {services : Services} {call : AccountCall} {s : Shared auth AccountCall} {α : Type}
  {replies : List Unit} {l : Login}
  {loc : Local auth} {tx : LocalTx auth}

/-! ## Google sign-in -/

theorem wp_failLogin {Q : α → Local auth → Shared auth AccountCall → Prop} {error : Failure}
    (hCall : loginOf services call = some l)
    (hFailed : ∀ s', (discipline services).Rely loc.held s s' → ∀ tx, loc.tx = some tx →
      Failed l (s'.entry call tx.startedAt tx.reads tx.answers loc.replies (some error) s'.db)
      error) :
    Wp (discipline services) call (.fail error) Q loc s :=
  Wp.fail safe_any fun s' hRely tx hTx => undoable_login hRely.inv hCall (hFailed s' hRely tx hTx)

/-- The user that the login goes on with owns the account. -/
def Owner (l : Login) (userId : Nat) (db : Database) : Prop :=
  ∃ a, db.accounts.get l.key = some a ∧ a.userId = userId

theorem Owner.later {userId : Nat} {db db' : Database} (h : Owner l userId db)
    (hLater : Later db db') : Owner l userId db' := by
  obtain ⟨a, hGet, hUser⟩ := h
  exact ⟨a, hLater.accounts _ a hGet, hUser⟩

theorem owner_created {db : Database} (hAccount : db.accounts.get l.key = none) :
    Owner l l.user.id ((db.insertUser l.newUser).insertAccount l.newAccount) :=
  ⟨l.newAccount, by rw [get_account_insert, hAccount, Option.none_or]; exact if_pos rfl, rfl⟩

theorem commits_created {s : Shared auth AccountCall} {pending : Database → Database}
    {db : Database} {more : List (Statement × Database)} {locks : Resource → Prop} {startedAt : Nat}
    (hCall : loginOf services call = some l) (hSound : (ledger services).Sound s)
    (hPending : pending s.db = (s.db.insertUser l.newUser).insertAccount l.newAccount)
    (hNone : db.accounts.get l.key = none) (hId : emailOf s.db l.user.id = none)
    (hEmail : ∀ id, emailOf s.db id ≠ some l.profile.email)
    (hAccount : s.db.accounts.get l.key = none) (hUserLock : locks (.user l.user.id))
    (hEmailLock : locks (.userEmail l.profile.email))
    (hAccountLock : locks (.account l.key.1 l.key.2)) :
    Commits (discipline services) locks s
      (s.entry call startedAt ((.findAccount, db) :: more) [] replies none (pending s.db))
      (Wp (discipline services) call (.done (.ok l.user.id : Except Failure Nat)) (fun a loc s =>
        (∃ replies, loc = .outside replies) ∧ ∀ userId,
          a = .ok userId → Owner l userId s.db) (.outside replies)) := by
  rw [hPending]
  refine fun _ =>
    ⟨guarantee_legal hSound rfl rfl (.inl ⟨l, hCall,
    .created rfl rfl hNone hId hEmail hAccount rfl⟩) fun r hr => ?_,
    fun _ _ => trivial, Wp.done safe_any fun s' hRely => ⟨⟨_, rfl⟩, fun userId hSame => ?_⟩⟩
  · cases r with
    | user id =>
      intro hNone
      refine (emailOf_insertUser (u := l.newUser)).trans ?_
      rw [show emailOf s.db id = none from hNone, Option.none_or]
      exact if_neg fun (hSame : l.user.id = id) => hr (hSame ▸ hUserLock)
    | userEmail email =>
      intro hFree id hNew
      rcases Option.or_eq_some_iff.mp ((emailOf_insertUser (u := l.newUser)).symm.trans hNew)
        with hOld | ⟨_, hNew⟩
      · exact hFree id hOld
      · split at hNew
        · cases hNew
          exact hr hEmailLock
        · cases hNew
    | account provider providerAccountId =>
      intro hNone
      refine get_account_insert.trans ?_
      rw [show s.db.accounts.get (provider, providerAccountId) = none from hNone, Option.none_or]
      refine if_neg fun hSame => ?_
      cases hSame
      exact hr hAccountLock
    | _ => trivial
  · cases hSame
    exact (owner_created hAccount).later (rely_later hRely)

theorem free_of_no_clash {db : Database} {new : User} (h : db.userClash new = none) :
    emailOf db new.id = none ∧ ∀ id, emailOf db id ≠ some new.email := by
  unfold Database.userClash at h
  split at h
  · cases h
  next hId =>
  split at h
  · cases h
  next hEmail =>
  rw [Option.not_isSome_iff_eq_none] at hId hEmail
  exact ⟨by rw [emailOf, hId, Option.map_none], userByEmail_eq_none.mp hEmail⟩

theorem failed_of_clash {e : AccountEntry} {db : Database} {error : Failure}
    (h : db.userClash l.newUser = some error) (hLater : Later db e.before) : Failed l e error := by
  unfold Database.userClash at h
  split at h
  · cases h
    exact .rolledBack
  split at h
  · next hEmail =>
    cases h
    obtain ⟨u, hUser⟩ := Option.isSome_iff_exists.mp hEmail
    exact .taken (.inl rfl) (.inl ⟨u.id, hLater.emails _ _ (emailOf_of_userByEmail hUser)⟩)
  · cases h

theorem wp_findOrCreateUser (hCall : loginOf services call = some l) :
    Wp (discipline services) call ((findOrCreateUser l.profile l.consent l.user).bind fun userId =>
      .done (.ok userId : Except Failure Nat))
      (fun a => Wp (discipline services) call (.commit (.done a)) fun a loc s =>
        (∃ replies, loc = .outside replies) ∧ ∀ userId, a = .ok userId → Owner l userId s.db)
      ((Local.outside replies).opened s.now transactionTimeoutMs) s := by
  unfold findOrCreateUser
  refine Wp.statement rfl safe_any fun s₁ v₁ hRely₁ _ hSees₁ _ => ?_
  have hDb₁ : v₁.db = s₁.db := hSees₁.db
  dsimp only [bind_done, bind_eq, pure_eq]
  split
  · next account hAccount =>
    refine Wp.done safe_any fun s₂ hRely₂ => Wp.commit rfl safe_any fun s₃ hRely₃ _ _ => ?_
    have hLater := (rely_later hRely₂).trans (rely_later hRely₃)
    have hHere : s₃.db.accounts.get l.key = some account := hLater.accounts _ _ (hDb₁ ▸ hAccount)
    refine ⟨guarantee_same hRely₃.inv rfl rfl rfl
      (.inl ⟨l, hCall, .known rfl rfl rfl hAccount hHere⟩), fun _ _ => trivial, ?_⟩
    refine Wp.done safe_any fun s₄ hRely₄ => ⟨⟨_, rfl⟩, fun userId hSame => ?_⟩
    cases hSame
    exact ⟨account, (rely_later hRely₄).accounts _ _ hHere, rfl⟩
  next hNoAccount =>
  refine Wp.statement rfl safe_any fun s₂ v₂ hRely₂ _ hSees₂ _ => ?_
  have hDb₂ : v₂.db = s₂.db := hSees₂.db
  dsimp only [bind_done, bind_eq, pure_eq, require]
  split
  swap
  · next hUser =>
    obtain ⟨u, hUser⟩ := Option.ne_none_iff_exists'.mp hUser
    refine wp_failLogin hCall fun s₃ hRely₃ tx hTx => ?_
    cases hTx
    exact .linked rfl hNoAccount hUser (hDb₂ ▸ rely_later hRely₃)
  next hNoUser =>
  dsimp only [bind_done]
  split
  swap
  · next hConsent => exact wp_failLogin hCall fun _ _ _ _ => .consent hConsent
  dsimp only [bind_done, createUser, change]
  refine Wp.statement rfl safe_any fun s₃ v₃ hRely₃ _ hSees₃ _ => ?_
  have hDb₃ : v₃.db = s₃.db := hSees₃.db
  dsimp only [bind_done, bind_eq, pure_eq]
  split
  swap
  · next error hClash =>
    refine wp_failLogin hCall fun s₄ hRely₄ _ _ => failed_of_clash hClash ?_
    rw [hDb₃]
    exact rely_later hRely₄
  next hNoClash =>
  obtain ⟨hId, hEmail⟩ := free_of_no_clash hNoClash
  rw [hDb₃] at hId hEmail
  dsimp only [bind_done, createAccount, change, require]
  refine Wp.statement rfl safe_any fun s₄ v₄ hRely₄ _ hSees₄ _ => ?_
  have hAccounts₄ : v₄.db.accounts = s₄.db.accounts := by
    rw [hSees₄.db]
    dsimp only [Function.comp_apply]
    split <;> rfl
  dsimp only [bind_done, bind_eq, pure_eq]
  split
  swap
  · next hTaken =>
    rw [Bool.not_eq_true, Option.isNone_eq_false_iff, hAccounts₄] at hTaken
    obtain ⟨a, hTaken⟩ := Option.isSome_iff_exists.mp hTaken
    refine wp_failLogin hCall fun s₅ hRely₅ _ _ =>
      .taken (.inr rfl) (.inr ⟨a, (rely_later hRely₅).accounts _ _ hTaken⟩)
  next hFree =>
  dsimp only [bind_done]
  refine Wp.done safe_any fun s₅ hRely₅ => Wp.commit rfl safe_any fun s₆ hRely₆ _ => ?_
  have hRely := hRely₅.trans hRely₆
  have hId₆ : emailOf s₆.db l.user.id = none :=
    rely_user hRely (.inl (.inr List.mem_cons_self))
      (rely_user hRely₄ (.inr List.mem_cons_self) hId)
  have hEmail₆ : ∀ id, emailOf s₆.db id ≠ some l.profile.email :=
    rely_email hRely (.inl (.inr (List.mem_cons_of_mem _ List.mem_cons_self)))
      (rely_email hRely₄ (.inr (List.mem_cons_of_mem _ List.mem_cons_self)) hEmail)
  have hAccount₆ : s₆.db.accounts.get l.key = none := by
    refine rely_account hRely (.inr List.mem_cons_self) ?_
    rw [← hAccounts₄]
    exact Option.isNone_iff_eq_none.mp hFree
  refine commits_created hCall hRely₆.inv ?_ hNoAccount hId₆ hEmail₆ hAccount₆ ?_ ?_ ?_
  · dsimp only [Function.comp_apply]
    rw [if_pos hFree]
    rfl
  · exact .inl (.inr List.mem_cons_self)
  · exact .inl (.inr (List.mem_cons_of_mem _ List.mem_cons_self))
  · exact .inr List.mem_cons_self

theorem wp_look {β : Type} {Q : β → Local auth → Shared auth AccountCall → Prop} {name : Statement}
    {next : View auth → Script auth β} (hCall : loginOf services call = some l)
    (hName : name = .findCommittedAccount ∨ name = .findCommittedUser)
    (h : ∀ s' v, v.db = s'.db → ∀ s'', (discipline services).Rely (fun _ => False) s' s'' →
      Wp (discipline services) call (next v) Q (.outside replies) s'') :
    Wp (discipline services) call (.sql name (fun _ => []) (fun _ => id) next) Q
      (.outside replies) s := by
  refine Wp.autocommit fun s' v hRely hSees _ _ => ?_
  have hGuarantee : (discipline services).Guarantee (· ∈ ([] : List Resource)) s'
      (s'.record (s'.entry call s'.now [(name, v.db)] [] replies none s'.db)) :=
    guarantee_same hRely.inv rfl rfl rfl (.inl ⟨l, hCall,
      .looked rfl rfl (by rw [hSees.db]; rfl) hName⟩)
  exact ⟨hGuarantee, fun _ _ => trivial, h s' v hSees.db _ (hGuarantee.rely_outside hRely.inv)⟩

theorem wp_googleUser (hCall : loginOf services call = some l) :
    Wp (discipline services) call (googleUser l.profile l.consent l.user) (fun a loc s =>
      (∃ replies, loc = .outside replies) ∧ ∀ userId,
        a = .ok userId → Owner l userId s.db) (.outside replies) s := by
  refine Wp.transaction (fun error replies' s₁ _ => ?_) fun s₁ _ => wp_findOrCreateUser hCall
  have hRefused (error : Failure) (s : Shared auth AccountCall) : Wp (discipline services) call
    (refuse error : Script auth (Except Failure Nat))
      (fun a loc s => (∃ replies, loc = .outside replies) ∧ ∀ userId,
        a = .ok userId → Owner l userId s.db)
      (.outside replies') s :=
    Wp.done safe_any fun _ _ => ⟨⟨_, rfl⟩, fun _ hOk => by cases hOk⟩
  split
  swap
  · exact hRefused error s₁
  unfold findCommittedUser
  refine wp_look hCall (.inl rfl) fun s₂ v₂ hDb₂ s₃ hRely₃ => ?_
  dsimp only [bind_done, bind_eq, pure_eq]
  split
  · next account hAccount =>
    refine Wp.done safe_any fun s₄ hRely₄ => ⟨⟨_, rfl⟩, fun userId hSame => ?_⟩
    cases hSame
    exact ⟨account, ((rely_later hRely₃).trans (rely_later hRely₄)).accounts _ _ (hDb₂ ▸ hAccount),
      rfl⟩
  · refine wp_look hCall (.inr rfl) fun s₄ v₄ _ s₅ _ => ?_
    dsimp only [bind_done, bind_eq, pure_eq]
    split
    · exact hRefused _ s₅
    · exact hRefused _ s₅

theorem wp_createSession {userId : Nat} {metadata : SessionRequestMetadata} {drawn : DrawnSession}
    {rememberMe : Bool} (hCall : loginOf services call = some l) (hOwner : Owner l userId s.db) :
    Wp (discipline services) call (createSession services userId metadata drawn rememberMe none)
      (fun _ _ _ => True)
      (.outside replies) s := by
  unfold createSession
  refine Wp.clock safe_any fun s₁ hRely₁ => ?_
  refine Wp.transaction (fun _ _ _ _ => Wp.done safe_any fun _ _ => trivial) fun s₂ hRely₂ => ?_
  dsimp only [bind_eq, checkPassword, pure_eq, bind_done, storeSession]
  refine Wp.statement rfl safe_any fun s₃ v₃ hRely₃ _ hSees₃ _ => ?_
  have hDb₃ : v₃.db = s₃.db := hSees₃.db
  have hOwner₃ :=
    hOwner.later (((rely_later hRely₁).trans (rely_later hRely₂)).trans (rely_later hRely₃))
  dsimp only [bind_done, bind_eq, pure_eq]
  split
  · next hNobody =>
    obtain ⟨a, hGet, rfl⟩ := hOwner₃
    obtain ⟨email, hEmail⟩ := (Sound.consistent hRely₃.inv).owned _ a hGet
    rw [emailOf, ← hDb₃, hNobody] at hEmail
    cases hEmail
  next user hUser =>
  dsimp only [bind_done, bind_eq, pure_eq, insertSession, insertToken, change, require]
  refine Wp.statement rfl safe_any fun s₄ v₄ hRely₄ _ _ _ => ?_
  dsimp only [bind_done, bind_eq, pure_eq]
  split
  swap
  · exact wp_failLogin hCall fun _ _ _ _ => .session (.inl rfl)
  next hSession =>
  refine Wp.statement rfl safe_any fun s₅ v₅ hRely₅ _ _ _ => ?_
  dsimp only [bind_done, bind_eq, pure_eq]
  split
  swap
  · exact wp_failLogin hCall fun _ _ _ _ => .session (.inr rfl)
  next hToken =>
  rw [decide_eq_true_eq] at hSession hToken
  refine Wp.done safe_any fun s₆ hRely₆ => Wp.commit rfl safe_any fun s₇ hRely₇ _ _ => ?_
  dsimp only [Function.comp_apply]
  rw [if_neg hSession, if_neg hToken]
  obtain ⟨a, hGet, hUserId⟩ := hOwner₃.later
    (((rely_later hRely₄).trans (rely_later hRely₅)).trans
      ((rely_later hRely₆).trans (rely_later hRely₇)))
  refine ⟨guarantee_legal hRely₇.inv rfl rfl (.inl ⟨l, hCall,
    .started rfl rfl hGet hUserId.symm rfl rfl rfl⟩)
    fun r _ => respects_of_eq (fun _ => rfl) rfl r, fun _ _ =>
      trivial, Wp.done safe_any fun _ _ => trivial⟩

theorem profile_of_verified {payload : GoogleTokenPayload} {profile : GoogleUserProfile}
    (h : verifyIdToken services payload = .ok profile) : profile = profileOf services payload := by
  unfold verifyIdToken at h
  split at h
  · cases h
  · cases h
    rfl

theorem wp_googleLogin {payload : GoogleTokenPayload} {consent : LegalConsent}
    {metadata : SessionRequestMetadata} {user : DrawnUser} {session : DrawnSession}
    {rememberMe : Bool} (hSound : (ledger services).Sound s)
    (hCall : loginOf services call = some ⟨profileOf services payload, consent, user⟩) :
    Wp (discipline services) call
      (googleLogin services payload consent metadata user session rememberMe) (fun _ _ _ => True)
      (.outside replies) s := by
  unfold googleLogin
  split
  · exact Wp.done safe_any fun _ _ => trivial
  next profile hVerified =>
  obtain rfl := profile_of_verified hVerified
  split
  · exact Wp.done safe_any fun _ _ => trivial
  refine Wp.bind hSound ((wp_googleUser hCall).mono fun a loc s _ h => ?_)
  obtain ⟨⟨replies', rfl⟩, hOwner⟩ := h
  cases a with
  | error error => exact Wp.done safe_any fun _ _ => trivial
  | ok userId => exact wp_createSession hCall (hOwner userId rfl)

/-! ## The other calls -/

/-- The change leaves users and accounts alone and starts no session. -/
def Calm (change : Database → Database) : Prop := ∀ db, Kept db (change db)

theorem calm_id : Calm id := Kept.refl

theorem Calm.comp {f g : Database → Database} (hf : Calm f) (hg : Calm g) : Calm (f ∘ g) :=
  fun db => (hg db).trans (hf (g db))

theorem calm_of_eq {change : Database → Database}
    (h : ∀ db, (change db).users = db.users ∧ (change db).accounts = db.accounts ∧
      (change db).sessions = db.sessions) :
    Calm change := by
  intro db
  obtain ⟨hUsers, hAccounts, hSessions⟩ := h db
  refine ⟨emailOf_congr hUsers, hAccounts, fun id s hGet => ⟨s, ?_, rfl⟩⟩
  rw [← hSessions]
  exact hGet

theorem kept_modifyUsers {db : Database} {ids : List Nat} {f : User → User}
    {hKey : ∀ u, (f u).id = u.id} (hEmail : ∀ u, (f u).email = u.email) : Kept db
      { db with users := db.users.modify ids f hKey } := by
  refine ⟨fun id => ?_, rfl, fun _ s hGet => ⟨s, hGet, rfl⟩⟩
  rw [emailOf, emailOf, Table.get_modify, Option.map_map]
  refine Option.map_congr fun u _ => ?_
  dsimp only [Function.comp_apply]
  split
  · exact hEmail u
  · rfl

theorem calm_revokeSessions {ids : List String} {revokedAt : Nat} {reason : SessionRevokedReason} :
    Calm fun db => db.revokeSessions ids revokedAt reason := by
  refine fun db => ⟨fun _ => rfl, rfl, fun id s' hGet => ?_⟩
  dsimp only [Database.revokeSessions] at hGet
  rw [Table.get_modify] at hGet
  obtain ⟨s, hOld, rfl⟩ := Option.map_eq_some_iff.mp hGet
  refine ⟨s, hOld, ?_⟩
  split <;> rfl

theorem calm_deleteSessions {ids : List String} : Calm fun db => db.deleteSessions ids := by
  refine fun db => ⟨fun _ => rfl, rfl, fun id s' hGet => ⟨s', ?_, rfl⟩⟩
  exact (Option.filter_eq_some_iff.mp (Table.get_delete.symm.trans hGet)).1

theorem harmless (hCall : loginOf services call = none) :
    Harmless (discipline services) call Calm fun _ => False where
  same := calm_id
  comp _ _ := Calm.comp
  free _ _ := trivial
  record held s e change hSound _ hOf hBefore hEnded hCalm hAfter _ := by
    have hKept : Kept e.before e.after := by
      rw [hBefore, hAfter]
      exact hCalm s.db
    exact guarantee_legal hSound hBefore hEnded
      (.inr ⟨by rw [hOf]; exact hCall, .kept hKept⟩) fun r _ =>
        respects_of_eq hKept.emails hKept.accounts r
  ask _ _ _ _ _ _ hMild := hMild.elim

section Quiet

variable {name : Statement} {now : Nat}

/-- The script is made of such changes. -/
abbrev Quiet {β : Type} (p : Script auth β) : Prop := p.Writes Calm fun _ => False

theorem quiet_query {β : Type} {answer : View auth → β} : Quiet (query name answer) :=
  Writes.query calm_id

theorem quiet_consumeAuthTokens {where_ : AuthToken → Bool} :
    Quiet (consumeAuthTokens name where_ now) :=
  Writes.change fun _ => calm_of_eq fun _ => ⟨rfl, rfl, rfl⟩

theorem quiet_setEmailVerified {userId : Nat} : Quiet (setEmailVerified userId) :=
  Writes.bind (Writes.change fun _ _ => kept_modifyUsers fun _ => rfl) fun _ => Writes.check

theorem quiet_setPassword {userId : Nat} {hash : String} : Quiet (setPassword userId hash) :=
  Writes.bind (Writes.change fun _ _ => kept_modifyUsers fun _ => rfl) fun _ => Writes.check

theorem quiet_issueInTransaction {userId : Nat} {type : AuthTokenType} {drawn : DrawnAuthToken} :
    Quiet (issueInTransaction services userId type drawn) := by
  refine Writes.readClock.bind fun now => Writes.bind (Writes.change fun _ => calm_id) fun _ =>
    quiet_consumeAuthTokens.bind fun _ =>
      Writes.bind (Writes.bind (Writes.change fun v => ?_) fun clash => ?_) fun _ => trivial
  · refine calm_of_eq fun db => ?_
    split <;> exact ⟨rfl, rfl, rfl⟩
  · cases clash <;> trivial

theorem quiet_requestPasswordReset {email : String} {drawn : DrawnAuthToken} :
    Quiet (requestPasswordReset services email drawn) := by
  refine quiet_query.bind fun user => ?_
  cases user with
  | none => trivial
  | some user =>
    dsimp only
    split
    · exact Writes.bind (Writes.transaction (quiet_issueInTransaction.bind fun _ => trivial)
        fun _ => trivial) fun _ => trivial
    · trivial

theorem quiet_resendEmailVerification {email : String} {drawn : DrawnAuthToken} :
    Quiet (resendEmailVerification services email drawn) := by
  refine quiet_query.bind fun user => ?_
  cases user with
  | none => trivial
  | some user =>
    dsimp only
    split
    · trivial
    · exact Writes.transaction (quiet_issueInTransaction.bind fun _ => trivial) fun _ => trivial

theorem quiet_verifyEmail {token : String} : Quiet (verifyEmail services token) := by
  refine Writes.transaction (Writes.bind
    (Writes.readClock.bind fun now => quiet_query.bind fun found => ?_) fun _ => trivial)
    fun _ => trivial
  split
  · trivial
  split
  · exact quiet_consumeAuthTokens.bind fun _ => trivial
  split
  · trivial
  split
  · trivial
  refine quiet_consumeAuthTokens.bind fun consumed => ?_
  split
  · exact quiet_query.bind fun _ => trivial
  · exact quiet_setEmailVerified.bind fun _ => trivial

theorem quiet_resetPassword {token passwordHash : String} :
    Quiet (resetPassword services token passwordHash) := by
  refine quiet_query.bind fun authToken => Writes.readClock.bind fun calledAt => ?_
  split
  · trivial
  refine Writes.transaction (Writes.readClock.bind fun now => quiet_query.bind fun found => ?_)
    fun _ => trivial
  split
  · trivial
  refine quiet_consumeAuthTokens.bind fun consumed => ?_
  split
  · trivial
  · exact quiet_setPassword.bind fun _ =>
      Writes.bind (Writes.change fun _ => calm_revokeSessions) fun _ => trivial

theorem quiet_deleteExpiredData : Quiet deleteExpiredData :=
  Writes.readClock.bind fun _ =>
    Writes.bind (Writes.change fun _ => calm_of_eq fun _ => ⟨rfl, rfl, rfl⟩) fun _ =>
    Writes.bind (Writes.change fun _ => calm_deleteSessions) fun _ => trivial

end Quiet

/-! ## Registration -/

/-- A new user has been put in, and nobody else can take the identifier or the address. -/
structure Registering (services : Services) (u : User) (loc : Local auth)
    (s : Shared auth AccountCall) : Prop where
  tx : ∃ tx, loc.tx = some tx ∧ ∀ db, Kept (db.insertUser u) (tx.pending db)
  user : loc.held (.user u.id)
  email : loc.held (.userEmail u.email)
  unused : emailOf s.db u.id = none
  free : ∀ id, emailOf s.db id ≠ some u.email

theorem Registering.later {u : User} {s' : Shared auth AccountCall}
    (h : Registering services u loc s) (hRely : (discipline services).Rely loc.held s s') :
    Registering services u loc s' :=
  { h with
    unused := rely_user hRely h.user h.unused
    free := rely_email hRely h.email h.free }

theorem wp_commitRegistering {a : α} {u : User} {text : String}
    (hCall : loginOf services call = none) (hNormal : u.email = services.normalizeEmail text)
    (h : Registering services u loc s) :
    Wp (discipline services) call (.commit (.done a)) (fun _ _ _ => True) loc s := by
  obtain ⟨tx, hTx, hPending⟩ := h.tx
  refine Wp.commit hTx safe_any fun s' hRely _ _ =>
    ⟨?_, fun _ _ => trivial, Wp.done safe_any fun _ _ => trivial⟩
  have hHere := h.later hRely
  have hKept := hPending s'.db
  refine guarantee_legal hRely.inv rfl rfl
    (.inr ⟨hCall, .registered hNormal hHere.unused hHere.free hKept⟩) fun r hr => ?_
  cases r with
  | user id =>
    intro hNone
    refine (hKept.emails id).trans ?_
    rw [emailOf_insertUser, show emailOf s'.db id = none from hNone, Option.none_or]
    exact if_neg fun (hSame : u.id = id) => hr (hSame ▸ h.user)
  | userEmail email =>
    intro hFree id hNew
    have hInserted : emailOf (s'.db.insertUser u) id = some email :=
      (hKept.emails id).symm.trans hNew
    rw [emailOf_insertUser] at hInserted
    rcases Option.or_eq_some_iff.mp hInserted with hOld | ⟨_, hNew⟩
    · exact hFree id hOld
    · split at hNew
      · cases hNew
        exact hr h.email
      · cases hNew
  | account provider providerAccountId =>
    intro hNone
    show (tx.pending s'.db).accounts.get (provider, providerAccountId) = none
    rw [hKept.accounts]
    exact hNone
  | _ => trivial

theorem body_issueInTransaction {userId : Nat} {type : AuthTokenType} {drawn : DrawnAuthToken} :
    (issueInTransaction services userId type drawn).Body := by
  refine Body.bind (fun _ => trivial) fun now => Body.bind (fun _ => trivial) fun _ =>
    Body.bind (fun _ => trivial) fun _ =>
    Body.bind (Body.bind (fun _ => trivial) fun clash => ?_) fun _ => trivial
  cases clash <;> trivial

theorem wp_register {input : RegisterInput} {passwordHash : String} {user : DrawnUser}
    {drawn : DrawnAuthToken} (hCall : loginOf services call = none) :
    Wp (discipline services) call (register services input passwordHash user drawn)
      (fun _ _ _ => True) (.outside replies) s := by
  have hRefused (error : Failure) (replies : List Unit) (s : Shared auth AccountCall) :
      Wp (discipline services) call (refuse error : Script auth (Except Failure String))
        (fun _ _ _ => True) (.outside replies) s :=
    Wp.done safe_any fun _ _ => trivial
  unfold register
  dsimp only
  split
  · exact hRefused _ _ _
  refine Wp.autocommit fun s₁ v₁ hRely₁ _ _ _ => ⟨?_, fun _ _ => trivial, ?_⟩
  · exact guarantee_same hRely₁.inv rfl rfl rfl (.inr ⟨hCall, .kept (.refl _)⟩)
  dsimp only [bind_done, bind_eq]
  split
  · exact hRefused _ _ _
  refine Wp.transaction (fun error replies' s' _ => ?_) fun s₂ _ => ?_
  · split <;> exact hRefused _ _ _
  unfold createUser
  refine Wp.statement rfl safe_any fun s₃ v₃ hRely₃ _ hSees₃ _ => ?_
  have hDb₃ : v₃.db = s₃.db := hSees₃.db
  dsimp only [bind_done, bind_eq]
  split
  swap
  · exact Wp.fail safe_any fun _ hRely _ _ => undoable_other hRely.inv hCall
  next hNoClash =>
  obtain ⟨hUnused, hFree⟩ := free_of_no_clash hNoClash
  rw [hDb₃] at hUnused hFree
  have hQuiet : Quiet ((issueInTransaction services user.id .emailVerification drawn).bind fun _ =>
      (pure (.ok (services.normalizeEmail input.email)) : Script auth (Except Failure String))) :=
    quiet_issueInTransaction.bind fun _ => trivial
  refine Wp.of_body (I := Registering services
      ⟨user.id, user.publicId, services.normalizeEmail input.email, some passwordHash, false⟩)
    ?_ hQuiet (fun loc s h => ?_)
    (fun loc s s' h hRely => h.later hRely) (fun loc s tx name locks write v h hTx hCalm => ?_)
    (fun loc s tx error _ hInv _ => undoable_other hInv hCall)
      (fun a loc s h => wp_commitRegistering hCall rfl h) ?_
  · exact body_issueInTransaction.bind fun _ => trivial
  · obtain ⟨tx, hTx, _⟩ := h.tx
    exact ⟨tx, hTx⟩
  · obtain ⟨tx', hTx', hPending⟩ := h.tx
    cases hTx.symm.trans hTx'
    exact { h with
      tx := ⟨_, rfl, fun db => (hPending db).trans (hCalm _)⟩
      user := .inl h.user
      email := .inl h.email }
  · refine ⟨⟨_, rfl, fun db => ?_⟩, .inr List.mem_cons_self,
      .inr (List.mem_cons_of_mem _ List.mem_cons_self), hUnused, hFree⟩
    dsimp only [Function.comp_apply]
    rw [if_pos hNoClash]
    exact .refl _

/-! ## The system -/

theorem wp_outcome {script : Script auth α} {outcome : α → AccountOutcome}
    (hSound : (ledger services).Sound s)
    (h : Wp (discipline services) call script (fun _ _ _ => True) (.outside []) s) :
    Wp (discipline services) call (script.bind fun a => .done (outcome a)) (fun _ _ _ => True)
      (.outside []) s :=
  Wp.bind hSound (h.mono fun _ _ _ _ _ => Wp.done safe_any fun _ _ => trivial)

theorem wp_quiet {script : Script auth AccountOutcome} (hCall : loginOf services call = none)
    (hQuiet : Quiet script) :
    Wp (discipline services) call script (fun _ _ _ => True) (.outside []) s :=
  Wp.of_writes (harmless hCall) hQuiet fun tx hTx => by cases hTx

theorem verified_accounts : Verified (discipline services) (accountSystem services) where
  tick s ms hSound := Ledger.guarantee_tick hSound trivial (fun _ => trivial) fun _ _ => trivial
  spawn s call ext script hSound h := by
    cases h
    refine ⟨Ledger.guarantee_setExt hSound trivial trivial (fun _ _ => trivial) fun _ _ _ =>
      trivial, ?_⟩
    have hSound' : (ledger services).Sound (s.setExt s.ext) := hSound
    cases call with
    | register input passwordHash user token => exact wp_outcome hSound' (wp_register rfl)
    | resendEmailVerification email drawn =>
      exact wp_quiet rfl (quiet_resendEmailVerification.bind fun _ => trivial)
    | requestPasswordReset email drawn =>
      exact wp_quiet rfl (quiet_requestPasswordReset.bind fun _ => trivial)
    | verifyEmail token => exact wp_quiet rfl (quiet_verifyEmail.bind fun _ => trivial)
    | resetPassword token passwordHash =>
      exact wp_quiet rfl (quiet_resetPassword.bind fun _ => trivial)
    | deleteExpiredData => exact wp_quiet rfl (quiet_deleteExpiredData.bind fun _ => trivial)
    | googleLogin payload consent metadata user session rememberMe =>
      exact wp_outcome hSound' (wp_googleLogin hSound' rfl)

theorem sound_of_run {now : Nat} {w : World auth AccountCall AccountOutcome}
    (h : World.Leads (accountSystem services) (accountStart now) w) :
    (ledger services).Sound w.shared := by
  have hStart : (ledger services).Sound (accountStart now).shared :=
    ⟨.rest (Nat.zero_le _), trivial⟩
  exact ((World.meets_idle hStart fun _ => trivial).leads verified_accounts h
    fun _ _ => trivial).1.inv

end Pixaeron.Auth.Google
