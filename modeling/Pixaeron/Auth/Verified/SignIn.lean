import Pixaeron.Auth.Verified.Refresh

/-! # Verified: signing in and out

A password sign-in keeps the lock of its user from the comparison of the hash to the commit.
-/

namespace Pixaeron.Auth

open Transactions Transactions.Script

variable {services : Services} {genesis : Genesis} {call : Call} {s : Shared auth Call}
  {replies : List Unit}

/-! ## createSession -/

theorem wp_storeSession {userId : Nat} {metadata : SessionRequestMetadata} {drawn : DrawnSession}
    {rememberMe : Bool} {expectedPasswordHash : Option String} {now : Nat} {l : Local auth}
    {tx : LocalTx auth} (hCall : call.startsSession) (hTx : l.tx = some tx)
    (hPending : ∀ db, tx.pending db = db) (hVerified : ∀ hash, expectedPasswordHash = some hash →
      l.held (.user userId) ∧ ∃ u, s.db.users.get userId = some u ∧ u.password = some hash) :
    Wp (discipline services genesis) call
      (storeSession services userId metadata drawn rememberMe expectedPasswordHash now)
      (fun a => Wp (discipline services genesis) call (.commit (.done a)) fun _ l _ => AtRest l) l
        s := by
  unfold storeSession
  refine wp_statement hTx fun s₁ v₁ hRely₁ _ => ?_
  simp only [Script.bind_done]
  split
  · exact wp_fail
  unfold insertSession
  refine wp_statement rfl fun s₂ v₂ hRely₂ hDb₂ => ?_
  refine wp_require fun hAccepted => ?_
  have hNew : (newSession services userId metadata drawn rememberMe now).id ∉
    v₂.db.issuedSessions := of_decide_eq_true hAccepted
  have hIssued₂ : v₂.db.issuedSessions = s₂.db.issuedSessions := by
    rw [hDb₂]
    exact congrArg Database.issuedSessions (hPending s₂.db)
  unfold insertToken
  refine wp_statement rfl fun s₃ v₃ hRely₃ hDb₃ => ?_
  refine wp_require fun hAccepted' => ?_
  have hNew' : drawn.credential.tokenId ∉ v₃.db.issuedTokens := of_decide_eq_true hAccepted'
  have hIssued₃ : v₃.db.issuedTokens = s₃.db.issuedTokens := by
    rw [hDb₃]
    dsimp only [Function.comp_apply]
    rw [if_neg hNew]
    change (tx.pending s₃.db).issuedTokens = _
    rw [hPending]
  refine Wp.done safe fun s₄ hRely₄ => ?_
  refine wp_commit rfl fun s₅ hRely₅ =>
    ⟨⟨.start (newSession services userId metadata drawn rememberMe now)
    ⟨drawn.credential.tokenId, drawn.sessionId, drawn.credential.hash, none⟩ expectedPasswordHash,
      ?_⟩, fun _ => ?_⟩
  · have hRely₆ := hRely₄.trans hRely₅
    exact {
      before := rfl
      endedAt := rfl
      allowed := by
        refine ⟨?_, hCall, ?_, rfl, rfl, rfl, rfl, rfl, fun hash hHash => ?_⟩
        · exact rely_new_session (hRely₃.trans (hRely₆.weaken fun _ h => .inl h))
            (.inr (List.mem_singleton_self _))
            (hIssued₂ ▸ hNew)
        · exact rely_new_token hRely₆ (.inr (List.mem_singleton_self _)) (hIssued₃ ▸ hNew')
        · obtain ⟨hHeld, u, hUser, hPassword⟩ := hVerified hash hHash
          refine ⟨u, rely_user hRely₆ (.inl (.inl (.inl hHeld))) ?_, hPassword⟩
          refine rely_user hRely₃ (.inl (.inl hHeld)) (rely_user hRely₂ (.inl hHeld) ?_)
          exact rely_user hRely₁ hHeld hUser
      apply := by
        dsimp only [Shared.entry, Function.comp_apply]
        rw [if_neg hNew', if_neg hNew]
        dsimp only [id]
        rw [hPending]
        rfl
      held := by
        rintro r (rfl | rfl | ⟨hSome, rfl⟩)
        · exact .inl (.inr (List.mem_singleton_self _))
        · exact .inr (List.mem_singleton_self _)
        · obtain ⟨hash, hHash⟩ := Option.ne_none_iff_exists'.mp hSome
          exact .inl (.inl (.inl (hVerified hash hHash).1))
      justified := by
        intro ids at_ h
        cases h }
  · exact wp_return fun _ _ => ⟨_, rfl⟩

theorem wp_createSession {userId : Nat} {metadata : SessionRequestMetadata} {drawn : DrawnSession}
    {rememberMe : Bool} {expectedPasswordHash : Option String} (hCall : call.startsSession) :
    Wp (discipline services genesis) call
      (createSession services userId metadata drawn rememberMe expectedPasswordHash)
      (fun _ l _ => AtRest l) (.outside replies) s := by
  unfold createSession
  refine wp_clock fun s₁ _ => ?_
  refine Wp.transaction (fun error replies' s' _ => wp_return fun _ _ => ⟨_, rfl⟩) fun s₂ hRely₂ =>
    ?_
  unfold checkPassword
  split
  · exact wp_storeSession hCall rfl (fun _ => rfl) fun _ h => by cases h
  next expected =>
  refine wp_statement rfl fun s₃ v₃ hRely₃ hDb₃ => ?_
  simp only [Script.bind_done]
  refine wp_require fun hSame => ?_
  refine wp_storeSession hCall rfl (fun _ => rfl) fun hash hHash => ?_
  cases hHash
  obtain ⟨u, hUser, hPassword⟩ := Option.bind_eq_some_iff.mp hSame
  refine ⟨.inr ?_, u, ?_, hPassword⟩
  · dsimp only
    rw [hUser, if_pos (Option.isSome_some)]
    exact List.mem_singleton_self _
  · rw [hDb₃] at hUser
    exact hUser

theorem wp_login {email password : String} {metadata : SessionRequestMetadata}
    {drawn : DrawnSession} {rememberMe : Bool} (hCall : call.startsSession) :
    Wp (discipline services genesis) call (login services email password metadata drawn rememberMe)
      (fun _ l _ => AtRest l) (.outside replies) s := by
  unfold login
  refine wp_read fun s₁ v₁ _ _ hRecord => ?_
  simp only [Script.bind_done]
  split
  · exact wp_return fun _ _ => ⟨_, rfl⟩
  split
  · exact wp_return fun _ _ => ⟨_, rfl⟩
  split
  · split
    · refine Wp.bind hRecord.inv ((wp_createSession hCall).mono fun result l s hInv h => ?_)
      obtain ⟨replies, rfl⟩ := h
      split <;> exact wp_return fun _ _ => ⟨_, rfl⟩
    · exact wp_return fun _ _ => ⟨_, rfl⟩
  · exact wp_return fun _ _ => ⟨_, rfl⟩

/-! ## Logout -/

/-- A logout has read a session whose stored hash is not that of the presented credential. -/
def ReadsStale (services : Services) (cookie : Option String) (read : LogEntry) : Prop :=
  read.call = .logout cookie ∧ read.saw .findSession = some read.before ∧
    ∃ parsed row, parseRefreshToken cookie = some parsed ∧
      read.before.sessions.get parsed.sessionId = some row ∧
      row.revokedAt = none ∧
        services.verifyRefreshCredential parsed.refreshCredential row.refreshTokenHash = false

/-- What holds of a logout that started in `s₀` once it has returned true: the session that it was
called for is dead, or the logout has read a stale session. -/
def LoggedOut (services : Services) (s₀ : Shared auth Call) (cookie : Option String)
    (s : Shared auth Call) : Prop :=
  ∀ parsed, parseRefreshToken cookie = some parsed → parsed.sessionId ∈ s₀.db.issuedSessions →
    Dead s.db parsed.sessionId ∨ ∃ read ∈ s.history.drop s₀.history.length,
      ReadsStale services cookie read

theorem LoggedOut.later {s₀ s s' : Shared auth Call} {cookie : Option String}
    (h : LoggedOut services s₀ cookie s) (hRely : Reaches services genesis s s') :
    LoggedOut services s₀ cookie s' := by
  intro parsed hParse hIssued
  rcases h parsed hParse hIssued with hDead | ⟨read, hMem, hStale⟩
  · exact .inl (hDead.later (rely_later hRely))
  · obtain ⟨later, hLater⟩ := rely_extends hRely
    refine .inr ⟨read, ?_, hStale⟩
    rw [← hLater, List.drop_append]
    exact List.mem_append_left _ hMem

theorem wp_logout {cookie : Option String} (hCall : call = .logout cookie) (s₀ : Shared auth Call) :
    Wp (discipline services genesis) call (logout services cookie)
      (fun result l s => AtRest l ∧ (result = .ok true → LoggedOut services s₀ cookie s))
        (.outside replies) s₀ := by
  have hReturn {s : Shared auth Call} {result : Except Failure Bool}
    (hDone : LoggedOut services s₀ cookie s) :
      Wp (discipline services genesis) call (.done result)
        (fun result l s => AtRest l ∧ (result = .ok true → LoggedOut services s₀ cookie s))
          (.outside replies) s :=
    wp_return fun s' hRely => ⟨⟨_, rfl⟩, fun _ => hDone.later hRely⟩
  unfold logout
  split
  · next hNone => exact hReturn fun parsed hParse => by cases hNone.symm.trans hParse
  next parsed hParse =>
  refine wp_read fun s₁ v₁ hRely₁ hDb₁ hRecord₁ => ?_
  simp only [Script.bind_done, hDb₁]
  have hLater₁ := rely_later (hRely₁.trans hRecord₁)
  have hDeadDone {s : Shared auth Call} (hDead : parsed.sessionId ∈ s₀.db.issuedSessions →
    Dead s.db parsed.sessionId) :
      LoggedOut services s₀ cookie s := by
    intro parsed' hParse' hIssued
    cases hParse.symm.trans hParse'
    exact .inl (hDead hIssued)
  split
  · next hNone =>
    refine hReturn (hDeadDone fun hIssued => ⟨hLater₁.issuedSessions _ hIssued, fun row hGet => ?_⟩)
    cases hNone.symm.trans hGet
  next session hSession =>
  have hId : session.id = parsed.sessionId := Table.key_of_get hSession
  split
  · next hOwns =>
    refine wp_clock fun s₂ hRely₂ => ?_
    refine wp_revokeSession (.inl rfl) (fun s₃ hRely₃ => ?_) fun s₃ result hRely₃ hDead => ?_
    · exact ⟨fun h => absurd rfl h, fun h => (by rcases h with h | h <;> cases h),
        fun h => (by cases h),
        fun _ => ⟨cookie, parsed, hCall, hParse, by rw [hId]⟩, .inr (.inl rfl),
        fun _ => ⟨.revokeLoggedOut, .inr rfl, saw_statement⟩⟩
    · have hGone (hIssued : parsed.sessionId ∈ s₀.db.issuedSessions) : Dead s₃.db
        parsed.sessionId := by
        rw [← hId] at hIssued ⊢
        exact hDead ((rely_later ((reaches_of_rely hRely₂).trans hRely₃)).issuedSessions _
          (hLater₁.issuedSessions _ hIssued))
      cases result with
      | error error => exact hReturn (hDeadDone hGone)
      | ok _ => exact hReturn (hDeadDone hGone)
  · next hNot =>
    cases hRevoked : session.revokedAt with
    | some time =>
      refine hReturn (hDeadDone fun hIssued =>
        ⟨hLater₁.issuedSessions _ hIssued, fun row hGet hOpen => ?_⟩)
      cases hSession.symm.trans hGet
      cases hRevoked.symm.trans hOpen
    | none =>
      have hStale : ReadsStale services cookie
        (statementEntry call replies .findSession s₁ s₁.db) := by
        refine ⟨hCall, saw_statement, parsed, session, hParse, hSession, hRevoked, ?_⟩
        simpa [hRevoked] using hNot
      refine hReturn fun parsed' hParse' hIssued => .inr ⟨_, ?_, hStale⟩
      have hPrefix := (rely_extends hRely₁).length_le
      rw [Shared.record_history, List.drop_append_of_le_length hPrefix]
      exact List.mem_append_right _ (List.mem_singleton_self _)

theorem wp_logoutAll {userId : Nat} (hCall : call = .logoutAll userId) :
    Wp (discipline services genesis) call (logoutAll userId) (fun _ l _ => AtRest l)
      (.outside replies) s := by
  unfold logoutAll
  refine wp_clock fun s₁ hRely₁ => ?_
  refine wp_autocommit fun s₂ v hRely₂ hDb =>
    ⟨⟨.revoke ((s₂.db.sessions.select fun s => s.userId = userId ∧
    s.revokedAt = none).map Session.id) s₁.now .logoutAll, ?_⟩, fun _ =>
      wp_return fun _ _ => ⟨_, rfl⟩⟩
  rw [hDb]
  exact {
    before := rfl
    endedAt := rfl
    allowed := by
      refine ⟨fun _ _ id hMem row hGet => ?_, fun h => (by rcases h with h | h <;> cases h),
        fun h => (by cases h),
        fun h => (by cases h), .inr (.inr (.inr ⟨rfl, userId, hCall⟩)), fun h =>
          (by rcases h with h | h <;> cases h)⟩
      obtain ⟨row', hGet', hBoth⟩ := Table.mem_map_select.mp hMem
      cases hGet.symm.trans hGet'
      exact (of_decide_eq_true hBoth).2
    apply := rfl
    held := by
      rintro r ⟨id, hMem, _, rfl⟩
      obtain ⟨row, hRow, rfl⟩ := List.mem_map.mp hMem
      exact List.mem_map_of_mem hRow
    justified := by
      intro ids at_ h
      cases h }

end Pixaeron.Auth
