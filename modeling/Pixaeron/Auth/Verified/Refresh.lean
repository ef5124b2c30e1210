import Pixaeron.Auth.Discipline

/-! # Verified: refreshing a session

A refresh reads the token, then the session, and only then opens its transaction. What it has
read is kept up to the point where it is needed: for a revocation, and for the caller.
-/

namespace Pixaeron.Auth

open Transactions Transactions.Script

variable {services : Services} {genesis : Genesis} {call : Call} {s s' : Shared auth Call}
  {replies : List Unit}

/-- The others have led from one state to another. -/
abbrev Reaches (services : Services) (genesis : Genesis) (s s' : Shared auth Call) : Prop :=
  (discipline services genesis).Rely (fun _ => False) s s'

theorem reaches_of_rely {held : Resource → Prop}
    (h : (discipline services genesis).Rely held s s') :
    Reaches services genesis s s' :=
  h.weaken fun _ hNo => hNo.elim

/-- The session is revoked or gone, for good. -/
def Dead (db : Database) (id : String) : Prop :=
  id ∈ db.issuedSessions ∧ ∀ s, db.sessions.get id = some s → s.revokedAt ≠ none

theorem Dead.later {db db' : Database} {id : String} (h : Dead db id)
    (hLater : Later db db') : Dead db' id := by
  refine ⟨hLater.issuedSessions id h.1, fun s' hGet hOpen => ?_⟩
  obtain ⟨s, hOld, hStep⟩ := hLater.session id h.1 s' hGet
  exact h.2 s hOld (hStep.revoked hOpen)

theorem dead_revokeSessions {db : Database} {ids : List String} {id : String} {revokedAt : Nat}
    {reason : SessionRevokedReason} (hIssued : id ∈ db.issuedSessions)
    (hMem : ∀ s, db.sessions.get id = some s → s.revokedAt = none → id ∈ ids) :
    Dead (db.revokeSessions ids revokedAt reason) id := by
  refine ⟨hIssued, fun s' hGet hOpen => ?_⟩
  have hSessions := Effect.get_session_apply (.revoke ids revokedAt reason) db id
  dsimp only at hSessions
  replace hGet := hSessions.symm.trans hGet
  obtain ⟨s, hOld, hEq⟩ := Option.map_eq_some_iff.mp hGet
  split at hEq
  · subst hEq
    cases hOpen
  · next hNot =>
    subst hEq
    exact hNot (hMem s hOld hOpen)

/-! ## Revocations -/

theorem wp_revokeSession {α : Type} {Q : α → Local auth → Shared auth Call → Prop}
    {name : Statement} {id : String} {revokedAt : Nat} {reason : SessionRevokedReason}
    {k : Except Failure Unit → Script auth α} (hReason : reason = .logout ∨ reason = .expired)
    (hAllowed : ∀ s', Reaches services genesis s s' →
      Revokes (statementEntry call replies name s' (s'.db.revokeSessions [id] revokedAt reason))
      [id] revokedAt reason) (h : ∀ s' result,
      Reaches services genesis s s' → (id ∈ s'.db.issuedSessions → Dead s'.db id) →
      Wp (discipline services genesis) call (k result) Q (.outside replies) s') :
    Wp (discipline services genesis) call ((revokeSession name id revokedAt reason).bind k) Q
      (.outside replies) s := by
  refine wp_autocommit fun s' v hRely hDb =>
    ⟨⟨.revoke [id] revokedAt reason, ?_⟩, fun hRecord => ?_⟩
  · exact {
      before := rfl
      endedAt := rfl
      allowed := hAllowed s' hRely
      apply := rfl
      held := by
        rintro r ⟨id', hMem, hThere, rfl⟩
        obtain rfl := List.mem_singleton.mp hMem
        have hSome : (v.db.sessions.get id').isSome = true := hDb ▸ hThere
        rw [if_pos hSome]
        exact List.mem_singleton_self _
      justified := by
        rintro ids at_ hEq
        cases hEq
        rcases hReason with h | h <;> cases h }
  · rw [Script.bind_done]
    exact h _ _ (hRely.trans hRecord) fun hIssued => dead_revokeSessions hIssued fun _ _ _ =>
      List.mem_singleton_self id

/-! ## Reading the token and the session -/

/-- The token is one of the session's, and the presented secret is its secret. -/
def Genuine (services : Services) (db : Database) (parsed : ParsedRefreshToken)
    (t : SessionRefreshToken) : Prop :=
  db.tokens.get parsed.tokenId = some t ∧ t.sessionId = parsed.sessionId ∧
    services.verifyRefreshCredential parsed.refreshCredential t.credentialHash = true

/-- What holds of a refresh that started in `s₀` once it returns in `s`: if it found a consumed
token of the session, then the session is dead, or the token was found to be the last one before
the current one, and consumed a moment ago. -/
def Answered (services : Services) (genesis : Genesis) (s₀ : Shared auth Call) (now : Nat)
    (cookie : Option String) (s : Shared auth Call) : Prop :=
  ∀ parsed, parseRefreshToken cookie = some parsed → ∃ s₁,
    Reaches services genesis s₀ s₁ ∧ Reaches services genesis s₁ s ∧
    ∀ t consumedAt, Genuine services s₁.db parsed t → t.consumedAt = some consumedAt →
      Dead s.db parsed.sessionId ∨ ∃ s₂ row, Reaches services genesis s₁ s₂ ∧
        Reaches services genesis s₂ s ∧
        s₂.db.sessions.get parsed.sessionId = some row ∧ row.rotatedAt = some consumedAt ∧
        reuseAge now consumedAt ≤ refreshReuseGraceMs

theorem Answered.later {s₀ : Shared auth Call} {now : Nat} {cookie : Option String}
    (h : Answered services genesis s₀ now cookie s) (hRely : Reaches services genesis s s') :
    Answered services genesis s₀ now cookie s' := by
  intro parsed hParse
  obtain ⟨s₁, hFirst, hSince, hFate⟩ := h parsed hParse
  refine ⟨s₁, hFirst, hSince.trans hRely, fun t consumedAt hGenuine hConsumed => ?_⟩
  rcases hFate t consumedAt hGenuine hConsumed with hDead | ⟨s₂, row, hNext, hLast, hRow⟩
  · exact .inl (hDead.later (rely_later hRely))
  · exact .inr ⟨s₂, row, hNext, hLast.trans hRely, hRow⟩

/-- What a refresh knows when it has validated its token. -/
structure Loaded (services : Services) (genesis : Genesis) (call : Call) (s₀ : Shared auth Call)
    (cookie : Option String) (now : Nat) (context : RefreshContext)
    (s : Shared auth Call) : Prop where
  parsed : parseRefreshToken cookie = some context.parsedToken
  session : context.session.id = context.parsedToken.sessionId
  reads : ∃ s₁ s₂ read, Reaches services genesis s₀ s₁ ∧ Reaches services genesis s₁ s₂ ∧
    Reaches services genesis s₂ s ∧ Reaches services genesis (s₂.record read) s ∧
      read.before = s₂.db ∧ read.call = call ∧
    read.saw .findSession = some s₂.db ∧
    Genuine services s₁.db context.parsedToken context.refreshToken ∧
    (∃ found ∈ s₂.history, found.before = s₁.db) ∧
    s₂.db.sessions.get context.session.id = some context.session
  unrevoked : context.session.revokedAt = none
  unexpired : now < context.session.expiresAt
  issued : context.session.id ∈ s.db.issuedSessions

theorem Loaded.later {s₀ : Shared auth Call} {cookie : Option String} {now : Nat}
    {context : RefreshContext} (h : Loaded services genesis call s₀ cookie now context s)
    (hRely : Reaches services genesis s s') :
    Loaded services genesis call s₀ cookie now context s' := by
  obtain ⟨s₁, s₂, read, hFirst, hNext, hRead, hLast, hRest⟩ := h.reads
  exact { h with
    reads := ⟨s₁, s₂, read, hFirst, hNext, hRead.trans hRely, hLast.trans hRely, hRest⟩
    issued := (rely_later hRely).issuedSessions _ h.issued }

theorem wp_assertRefreshAllowed {α : Type} {Q : α → Local auth → Shared auth Call → Prop}
    {session : Session} {now : Nat} {cookie : Option String} {metadata : SessionRequestMetadata}
    {drawn : IssuedRefreshCredential} {parsed : ParsedRefreshToken}
    {k : Except Failure Unit → Script auth α}
    (hCall : call = .refreshSession now cookie metadata drawn)
    (hParse : parseRefreshToken cookie = some parsed) (hId : session.id = parsed.sessionId)
    (hSound : (ledger services genesis).Sound s)
    (hRead : s.db.sessions.get session.id = some session)
    (hAllowed : session.revokedAt = none → now < session.expiresAt →
      Wp (discipline services genesis) call (k (.ok ())) Q (.outside replies) s)
    (hRefused : ∀ s' error, Reaches services genesis s s' → Dead s'.db session.id →
      Wp (discipline services genesis) call (k (.error error)) Q (.outside replies) s') :
    Wp (discipline services genesis) call ((assertRefreshAllowed session now).bind k) Q
      (.outside replies) s := by
  have hIssued : session.id ∈ s.db.issuedSessions :=
    (Sound.consistent hSound).sessionIssued _ _ hRead
  unfold assertRefreshAllowed
  split
  · next hRevoked =>
    refine hRefused s _ (.refl hSound) ⟨hIssued, fun row hGet hOpen => ?_⟩
    rw [hRead, Option.some.injEq] at hGet
    rw [hGet, hOpen] at hRevoked
    cases hRevoked
  · next hOpen =>
    split
    · next hExpired =>
      rw [Script.bind_eq, Script.bind_assoc]
      refine wp_revokeSession (.inr rfl) (fun s' hRely => ?_) fun s' result hRely hDead => ?_
      · refine ⟨fun _ h => absurd rfl h, fun _ =>
          ⟨cookie, metadata, drawn, parsed, hCall, hParse, fun id hMem => ?_⟩,
          fun _ id hMem row hGet => ?_, fun h => (by cases h), .inl rfl, fun _ =>
            ⟨_, .inl rfl, saw_statement⟩⟩
        · rw [List.mem_singleton.mp hMem, hId]
        · obtain rfl := List.mem_singleton.mp hMem
          obtain ⟨row₀, hOld, hStep⟩ := (rely_later hRely).session _ hIssued row hGet
          rw [hRead, Option.some.injEq] at hOld
          rw [hStep.expiresAt, ← hOld]
          exact hExpired
      · have hGone := hDead ((rely_later hRely).issuedSessions _ hIssued)
        cases result with
        | error error => exact hRefused s' error hRely hGone
        | ok _ => exact hRefused s' _ hRely hGone
    · next hLive => exact hAllowed (by simpa using hOpen) (Nat.lt_of_not_le hLive)

/-- Between transactions. -/
def AtRest (l : Local auth) : Prop := ∃ replies, l = .outside replies

theorem wp_loadAndValidate {now : Nat} {cookie : Option String} {metadata : SessionRequestMetadata}
    {drawn : IssuedRefreshCredential} (hCall : call = .refreshSession now cookie metadata drawn)
    (s₀ : Shared auth Call) :
    Wp (discipline services genesis) call (loadAndValidateRefreshContext services cookie now)
      (fun result l s => AtRest l ∧
        (∀ error, result = .error error → Answered services genesis s₀ now cookie s) ∧
        ∀ context, result = .ok context → Loaded services genesis call s₀ cookie now context s)
      (.outside replies) s₀ := by
  have hRefuse {s : Shared auth Call} (error : Failure)
    (hAnswered : Answered services genesis s₀ now cookie s) :
      Wp (discipline services genesis) call (.done (.error error : Except Failure RefreshContext))
        (fun result l s => AtRest l ∧
          (∀ error, result = .error error → Answered services genesis s₀ now cookie s) ∧
          ∀ context, result = .ok context → Loaded services genesis call s₀ cookie now context s)
        (.outside replies) s :=
    wp_return fun s' hRely => ⟨⟨_, rfl⟩, fun _ _ => hAnswered.later hRely, fun _ h => by cases h⟩
  unfold loadAndValidateRefreshContext
  split
  · next hNone => exact hRefuse _ fun parsed hParse => by cases hNone.symm.trans hParse
  next parsed hParse =>
  refine wp_read fun s₁ v₁ hRely₁ hDb₁ hRecord₁ => ?_
  simp only [Script.bind_eq, Script.bind_done]
  refine wp_read fun s₂ v₂ hRely₂ hDb₂ hRecord₂ => ?_
  simp only [Script.bind_done, hDb₁, hDb₂]
  -- what an error means if the session is dead by then
  have hRead := hRecord₁.trans (hRely₂.trans hRecord₂)
  have hDeadAnswer {s : Shared auth Call} (hReach : Reaches services genesis s₁ s)
      (hDead : ∀ t, Genuine services s₁.db parsed t → Dead s.db parsed.sessionId) :
      Answered services genesis s₀ now cookie s := by
    intro parsed' hParse'
    cases hParse.symm.trans hParse'
    exact ⟨s₁, hRely₁, hReach, fun t _ hGenuine _ => .inl (hDead t hGenuine)⟩
  cases hSession : s₂.db.sessions.get parsed.sessionId with
  | none =>
    refine hRefuse _ (hDeadAnswer hRead fun t hGenuine => ?_)
    obtain ⟨row, hRow⟩ := (Sound.consistent hRely₁.inv).owner _ _ hGenuine.1
    have hIssued := (Sound.consistent hRely₁.inv).sessionIssued _ _ hRow
    rw [hGenuine.2.1] at hIssued
    refine ⟨(rely_later hRead).issuedSessions _ hIssued, fun row' hGet => ?_⟩
    cases hSession.symm.trans hGet
  | some session =>
    have hId : session.id = parsed.sessionId := Table.key_of_get hSession
    simp only [Option.map_some]
    refine wp_assertRefreshAllowed hCall hParse hId hRecord₂.inv (by rw [hId]; exact hSession)
      (fun hOpen hLive => ?_)
      fun s' error hRely' hDead => ?_
    · dsimp only
      split
      · next hNoToken =>
        refine hRefuse _ (hDeadAnswer hRead fun t hGenuine => ?_)
        cases hNoToken.symm.trans hGenuine.1
      · next token hToken =>
        split
        · next hMatches =>
          refine wp_return fun s' hRely' =>
            ⟨⟨_, rfl⟩, fun _ h => (by cases h), fun context hContext => ?_⟩
          cases hContext
          exact {
            parsed := hParse
            session := hId
            reads :=
              ⟨s₁, s₂, _, hRely₁, hRecord₁.trans hRely₂, hRecord₂.trans hRely', hRely', rfl, rfl,
              saw_statement,
              ⟨hToken, hMatches.1.trans hId, hMatches.2⟩,
              ⟨_, (rely_extends hRely₂).subset
                (List.mem_append_right _ (List.mem_singleton_self _)), rfl⟩, by
                rw [hId]
                exact hSession⟩
            unrevoked := hOpen
            unexpired := hLive
            issued := (rely_later hRely').issuedSessions _
              ((Sound.consistent hRely₂.inv).sessionIssued _ _ (by rw [hId]; exact hSession)) }
        · next hDiffers =>
          refine hRefuse _ (hDeadAnswer hRead fun t hGenuine => ?_)
          cases hToken.symm.trans hGenuine.1
          exact absurd ⟨hGenuine.2.1.trans hId.symm, hGenuine.2.2⟩ hDiffers
    · exact hRefuse _ (hDeadAnswer (hRead.trans hRely') fun _ _ => hId ▸ hDead)

/-! ## Reuse detection -/

theorem mem_of_revokesForReuse {e : LogEntry} {ids : List String} {revokedAt : Nat}
    {reason : SessionRevokedReason}
    (hAfter : e.after = (Effect.revoke ids revokedAt reason).apply e.before) {id : String}
    (h : RevokesForReuse e id) :
    id ∈ ids := by
  obtain ⟨s, s', hGet, hGet', hNot, hReason⟩ := h
  rw [hAfter, Effect.get_session_apply] at hGet'
  simp only [hGet, Option.map_some, Option.some.injEq] at hGet'
  subst hGet'
  split at hReason
  · assumption
  · exact absurd hReason hNot

theorem Loaded.answered {s₀ : Shared auth Call} {cookie : Option String} {now : Nat}
    {context : RefreshContext} (h : Loaded services genesis call s₀ cookie now context s)
    (hFate : ∀ consumedAt, context.refreshToken.consumedAt = some consumedAt →
      Dead s.db context.session.id ∨
      context.session.rotatedAt = some consumedAt ∧ reuseAge now consumedAt ≤ refreshReuseGraceMs) :
    Answered services genesis s₀ now cookie s := by
  obtain ⟨s₁, s₂, _, hFirst, hNext, hRead, _, _, _, _, hGenuine, _, hRow⟩ := h.reads
  intro parsed hParse
  cases h.parsed.symm.trans hParse
  refine ⟨s₁, hFirst, hNext.trans hRead, fun t consumedAt hFound hConsumed => ?_⟩
  cases hGenuine.1.symm.trans hFound.1
  rcases hFate consumedAt hConsumed with hDead | hPrevious
  · exact .inl (h.session ▸ hDead)
  · exact .inr ⟨s₂, context.session, hNext, hRead, by rw [← h.session]; exact hRow, hPrevious⟩

theorem Loaded.suspicious {s₀ : Shared auth Call} {cookie : Option String} {now consumedAt : Nat}
    {metadata : SessionRequestMetadata} {drawn : IssuedRefreshCredential} {context : RefreshContext}
    (hCall : call = .refreshSession now cookie metadata drawn)
    (h : Loaded services genesis call s₀ cookie now context s)
    (hConsumed : context.refreshToken.consumedAt = some consumedAt)
    (hReused : ¬ (context.session.rotatedAt = some consumedAt ∧
      reuseAge now consumedAt ≤ refreshReuseGraceMs)) :
    Suspicious s.history call context.session.id := by
  obtain ⟨s₁, s₂, read, _, _, _, hLast, hBefore, hReadCall, hSaw, hGenuine,
    ⟨found, hFound, hFoundDb⟩, hRow⟩ := h.reads
  obtain ⟨later, hLater⟩ := rely_extends hLast
  refine ⟨now, cookie, metadata, drawn, context.parsedToken, hCall, h.parsed, h.session.symm,
    s₂.history, read, later,
    context.refreshToken, context.session, consumedAt, ?_, ⟨found, hFound, ?_⟩, ?_, hConsumed,
      hReadCall, ?_, ?_, hReused⟩
  · rw [← hLater, Shared.record_history, List.append_assoc, List.singleton_append]
  · rw [hFoundDb]
    exact hGenuine.1
  · rw [h.session]
    exact hGenuine.2.1
  · rw [hBefore]
    exact hSaw
  · rw [hBefore]
    exact hRow

/-- `WHERE id = … AND revokedAt IS NULL` finds the one session, unless it is revoked. -/
theorem mem_select_open {db : Database} {id key : String} :
    key ∈ (db.sessions.select fun s => s.id = id ∧ s.revokedAt = none).map Session.id ↔
      key = id ∧ ∃ s, db.sessions.get id = some s ∧ s.revokedAt = none := by
  rw [Table.mem_map_select]
  constructor
  · rintro ⟨s, hGet, hBoth⟩
    obtain ⟨hId, hOpen⟩ := of_decide_eq_true hBoth
    obtain rfl : key = id := (Table.key_of_get hGet).symm.trans hId
    exact ⟨rfl, s, hGet, hOpen⟩
  · rintro ⟨rfl, s, hGet, hOpen⟩
    exact ⟨s, hGet, decide_eq_true ⟨Table.key_of_get hGet, hOpen⟩⟩

theorem wp_handleConsumed {now : Nat} {cookie : Option String} {metadata : SessionRequestMetadata}
    {drawn : IssuedRefreshCredential} {context : RefreshContext} {s₀ : Shared auth Call}
    (hCall : call = .refreshSession now cookie metadata drawn)
    (hLoaded : Loaded services genesis call s₀ cookie now context s) :
    Wp (discipline services genesis) call (handleConsumedRefreshToken context now)
      (fun result l s => AtRest l ∧
        (∀ error, result = .error error → Answered services genesis s₀ now cookie s) ∧
        (result = .ok () → Loaded services genesis call s₀ cookie now context s ∧
          context.refreshToken.consumedAt = none))
      (.outside replies) s := by
  unfold handleConsumedRefreshToken
  split
  · next hUnused =>
    exact wp_return fun s' hRely =>
      ⟨⟨_, rfl⟩, fun _ h => (by cases h), fun _ => ⟨hLoaded.later hRely, hUnused⟩⟩
  next consumedAt hConsumed =>
  split
  · next hPrevious =>
    refine wp_return fun s' hRely => ⟨⟨_, rfl⟩, fun _ _ => ?_, fun h => by cases h⟩
    refine (hLoaded.later hRely).answered fun time hTime => .inr ?_
    cases hConsumed.symm.trans hTime
    exact hPrevious
  next hReused =>
  refine wp_autocommit fun s' v hRely hDb =>
    ⟨⟨.revoke ((s'.db.sessions.select fun s => s.id = context.session.id ∧
    s.revokedAt = none).map Session.id) now .refreshReuse, ?_⟩, fun hRecord => ?_⟩
  · rw [hDb]
    exact {
      before := rfl
      endedAt := rfl
      allowed := by
        refine ⟨fun _ _ id hMem row hGet => ?_, fun _ =>
          ⟨cookie, metadata, drawn, context.parsedToken, hCall,
          hLoaded.parsed, fun id hMem => ?_⟩, fun h => (by cases h), fun h =>
            (by cases h), .inr (.inr (.inl rfl)),
          fun h => (by rcases h with h | h <;> cases h)⟩
        · obtain ⟨rfl, row', hGet', hOpen⟩ := mem_select_open.mp hMem
          cases hGet.symm.trans hGet'
          exact hOpen
        · rw [(mem_select_open.mp hMem).1, hLoaded.session]
      apply := rfl
      held := by
        rintro r ⟨id, hMem, _, rfl⟩
        obtain ⟨row, hRow, rfl⟩ := List.mem_map.mp hMem
        exact List.mem_map_of_mem hRow
      justified := by
        rintro ids at_ _ id hRevokes
        have hMem := mem_of_revokesForReuse rfl hRevokes
        rw [(mem_select_open.mp hMem).1]
        exact (hLoaded.later hRely).suspicious hCall hConsumed hReused }
  · refine wp_return fun s'' hRely' => ⟨⟨_, rfl⟩, fun _ _ => ?_, fun h => by cases h⟩
    have hDead : Dead (v.db.revokeSessions ((v.db.sessions.select fun s =>
      s.id = context.session.id ∧
        s.revokedAt = none).map Session.id) now .refreshReuse) context.session.id := by
      refine dead_revokeSessions ?_ fun row hGet hOpen =>
        mem_select_open.mpr ⟨rfl, row, hGet, hOpen⟩
      rw [hDb]
      exact (hLoaded.later hRely).issued
    rw [hDb] at hDead
    refine (hLoaded.later (hRely.trans (hRecord.trans hRely'))).answered fun _ _ => .inl ?_
    refine Dead.later ?_ (rely_later hRely')
    rw [Shared.record_db]
    simp only [hDb]
    exact hDead

/-! ## Rotation -/

theorem get_of_select_length {κ ρ : Type} [DecidableEq κ] {key : ρ → κ} {t : Table key}
    {p : ρ → Bool} (hOne : (t.select p).length = 1) :
    ∃ r, t.get (key r) = some r ∧ p r = true ∧ t.select p = [r] := by
  obtain ⟨r, hRow⟩ := List.length_eq_one_iff.mp hOne
  have hMem : r ∈ t.select p := by
    rw [hRow]
    exact List.mem_singleton_self r
  exact ⟨r, Table.get_of_mem (Table.mem_select.mp hMem).1, (Table.mem_select.mp hMem).2, hRow⟩

theorem wp_rotate {now : Nat} {cookie : Option String} {metadata : SessionRequestMetadata}
    {drawn : IssuedRefreshCredential} {context : RefreshContext} {s₀ : Shared auth Call}
    (hCall : call = .refreshSession now cookie metadata drawn)
    (hLoaded : Loaded services genesis call s₀ cookie now context s)
    (hUnused : context.refreshToken.consumedAt = none) :
    Wp (discipline services genesis) call
      (rotateRefreshCredentialAtomically context drawn metadata now)
      (fun _ l s => AtRest l ∧ Answered services genesis s₀ now cookie s) (.outside replies) s := by
  have hFinal {s' : Shared auth Call} (hRely : Reaches services genesis s s') : Answered services
    genesis s₀ now cookie s' :=
    (hLoaded.later hRely).answered fun time hTime => by cases hUnused.symm.trans hTime
  unfold rotateRefreshCredentialAtomically
  refine Wp.transaction (fun error replies' s' hRely => ?_) fun s' hRely => ?_
  · exact wp_return fun s'' hRely' => ⟨⟨_, rfl⟩, hFinal (hRely.trans hRely')⟩
  -- the session
  refine wp_statement rfl fun s₁ v₁ hRely₁ hDb₁ => ?_
  refine wp_require fun hOne => ?_
  obtain ⟨row, hRow, hMatches, hSelected⟩ := get_of_select_length hOne
  obtain ⟨hId, hHash, hOpen, hLive⟩ := of_decide_eq_true hMatches
  have hSessions₁ : v₁.db.sessions = s₁.db.sessions := by
    rw [hDb₁]
    rfl
  have hSession₁ : s₁.db.sessions.get context.session.id = some row := by
    rw [← hId, ← hSessions₁]
    exact hRow
  have hLock₁ := congrArg (List.map fun s => Resource.session s.id) hSelected
  -- its token
  refine wp_statement rfl fun s₂ v₂ hRely₂ hDb₂ => ?_
  refine wp_require fun hOne' => ?_
  obtain ⟨token, hToken, hMatches', hSelected'⟩ := get_of_select_length hOne'
  obtain ⟨hId', hOwner', hHash', hUnused'⟩ := of_decide_eq_true hMatches'
  have hTokens₂ : v₂.db.tokens = s₂.db.tokens := by
    rw [hDb₂]
    rfl
  have hToken₂ : s₂.db.tokens.get context.parsedToken.tokenId = some token := by
    rw [← hId', ← hTokens₂]
    exact hToken
  have hLock₂ := congrArg (List.map fun t => Resource.token t.id) hSelected'
  have hSession₂ : s₂.db.sessions.get context.session.id = some row := by
    refine rely_session hRely₂ (.inr ?_) hSession₁
    dsimp only
    rw [hLock₁, ← hId]
    exact List.mem_singleton_self _
  -- the new token
  unfold insertToken
  refine wp_statement rfl fun s₃ v₃ hRely₃ hDb₃ => ?_
  refine wp_require fun hAccepted => ?_
  have hNew : drawn.tokenId ∉ v₃.db.issuedTokens := of_decide_eq_true hAccepted
  have hIssued₃ : v₃.db.issuedTokens = s₃.db.issuedTokens := by
    rw [hDb₃]
    rfl
  have hSession₃ : s₃.db.sessions.get context.session.id = some row := by
    refine rely_session hRely₃ (.inl (.inr ?_)) hSession₂
    dsimp only
    rw [hLock₁, ← hId]
    exact List.mem_singleton_self _
  have hToken₃ : s₃.db.tokens.get context.parsedToken.tokenId = some token := by
    refine rely_token hRely₃ (.inr ?_) hToken₂
    dsimp only
    rw [hLock₂, ← hId']
    exact List.mem_singleton_self _
  refine Wp.done safe fun s₄ hRely₄ => ?_
  refine wp_commit rfl fun s₅ hRely₅ => ?_
  have hRely₆ := hRely₄.trans hRely₅
  have hSession₅ : s₅.db.sessions.get context.session.id = some row := by
    refine rely_session hRely₆ (.inl (.inl (.inr ?_))) hSession₃
    dsimp only
    rw [hLock₁, ← hId]
    exact List.mem_singleton_self _
  have hToken₅ : s₅.db.tokens.get context.parsedToken.tokenId = some token := by
    refine rely_token hRely₆ (.inl (.inr ?_)) hToken₃
    dsimp only
    rw [hLock₂, ← hId']
    exact List.mem_singleton_self _
  have hNew₅ : drawn.tokenId ∉ s₅.db.issuedTokens :=
    rely_new_token hRely₆ (.inr (List.mem_singleton_self _)) (hIssued₃ ▸ hNew)
  have hSessionIds := congrArg (List.map Session.id) hSelected
  have hTokenIds := congrArg (List.map SessionRefreshToken.id) hSelected'
  refine ⟨⟨.rotate context.session.id context.parsedToken.tokenId
    ⟨drawn.tokenId, context.session.id, drawn.hash, none⟩ now metadata, ?_⟩, fun hRecord => ?_⟩
  · exact {
      before := rfl
      endedAt := rfl
      allowed := {
        call :=
          ⟨cookie, drawn, context.parsedToken, hCall, hLoaded.parsed,
          hLoaded.session.symm, rfl, rfl⟩
        fresh := hNew₅
        rows :=
          ⟨row, token, hSession₅, hToken₅, hOwner', hHash'.trans hHash.symm, hUnused', hOpen,
          hLive, v₁.db,
          by simp [Entry.saw, Shared.entry], by rw [hSessions₁]; exact hSession₁⟩ }
      apply := by
        dsimp only [Shared.entry, Function.comp_apply]
        rw [if_neg hNew, hSessionIds, hTokenIds, List.map_singleton, List.map_singleton, hId, hId']
        rfl
      held := by
        rintro r (rfl | rfl | rfl)
        · refine .inl (.inl (.inr ?_))
          dsimp only
          rw [hLock₁, ← hId]
          exact List.mem_singleton_self _
        · refine .inl (.inr ?_)
          dsimp only
          rw [hLock₂, ← hId']
          exact List.mem_singleton_self _
        · exact .inr (List.mem_singleton_self _)
      justified := by
        intro ids at_ h
        cases h }
  · have hOutside := hRely.trans ((reaches_of_rely hRely₁).trans ((reaches_of_rely hRely₂).trans
      ((reaches_of_rely hRely₃).trans ((reaches_of_rely hRely₆).trans hRecord))))
    exact wp_return fun s₇ hRely₇ => ⟨⟨_, rfl⟩, hFinal (hOutside.trans hRely₇)⟩

theorem wp_refreshSession {now : Nat} {cookie : Option String} {metadata : SessionRequestMetadata}
    {drawn : IssuedRefreshCredential} (hCall : call = .refreshSession now cookie metadata drawn)
    (s₀ : Shared auth Call) (hSound : (ledger services genesis).Sound s₀) :
    Wp (discipline services genesis) call (refreshSession services now cookie metadata drawn)
      (fun _ l s => AtRest l ∧ Answered services genesis s₀ now cookie s)
        (.outside replies) s₀ := by
  have hReturn {s : Shared auth Call} {replies : List Unit} {result : Except Failure SignedIn}
      (hAnswered : Answered services genesis s₀ now cookie s) :
      Wp (discipline services genesis) call (.done result)
        (fun _ l s => AtRest l ∧ Answered services genesis s₀ now cookie s) (.outside replies) s :=
    wp_return fun s' hRely => ⟨⟨_, rfl⟩, hAnswered.later hRely⟩
  unfold refreshSession
  refine Wp.bind_inv hSound ((wp_loadAndValidate hCall s₀).mono fun result l s hInv h hSound' => ?_)
  obtain ⟨⟨replies, rfl⟩, hError, hOk⟩ := h
  cases result with
  | error error => exact hReturn (hError error rfl)
  | ok context =>
    refine Wp.bind hSound' ((wp_handleConsumed hCall (hOk context rfl)).mono
      fun result l s hInv h => ?_)
    obtain ⟨⟨replies, rfl⟩, hError, hOk⟩ := h
    cases result with
    | error error => exact hReturn (hError error rfl)
    | ok _ =>
      obtain ⟨hLoaded, hUnused⟩ := hOk rfl
      refine Wp.bind hInv ((wp_rotate hCall hLoaded hUnused).mono fun result l s hInv h => ?_)
      obtain ⟨⟨replies, rfl⟩, hAnswered⟩ := h
      split <;> exact hReturn hAnswered

end Pixaeron.Auth
