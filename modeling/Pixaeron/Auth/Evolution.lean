import Pixaeron.Auth.Effects

/-! # What becomes of the rows

How each effect changes one session, one refresh token or one user, and what every sequence of
effects keeps: identifiers are never used twice, revocations and consumptions are never undone.
-/

namespace Pixaeron.Auth

open Transactions

namespace Effect

variable (effect : Effect) (db : Database)

theorem get_session_apply (id : String) : (effect.apply db).sessions.get id =
    match effect with
    | .start session _ _ => (db.sessions.get id).or (if session.id = id then some session else none)
    | .rotate sessionId _ next now metadata =>
      (db.sessions.get id).map fun s =>
        if id = sessionId then s.rotate next.credentialHash now metadata else s
    | .revoke ids revokedAt reason =>
      (db.sessions.get id).map fun s => if id ∈ ids then s.revoke revokedAt reason else s
    | .reset _ _ _ ids now =>
      (db.sessions.get id).map fun s => if id ∈ ids then s.revoke now .passwordChanged else s
    | .dropSessions ids => (db.sessions.get id).filter fun s => !decide (s.id ∈ ids)
    | _ => db.sessions.get id := by
  cases effect <;>
    simp [apply, Database.insertSession, Database.insertToken, Database.rotateSessions,
      Database.consumeTokens, Database.revokeSessions, Database.consumeAuthTokens,
      Database.setPassword, Database.insertAuthToken, Database.deleteAuthTokens,
      Database.deleteSessions, Table.get_insert, Table.get_modify, Table.get_delete]

theorem get_token_apply (id : String) : (effect.apply db).tokens.get id =
    match effect with
    | .start _ token _ => (db.tokens.get id).or (if token.id = id then some token else none)
    | .rotate _ tokenId next now _ =>
      ((db.tokens.get id).map fun t => if id = tokenId then t.consume now else t).or
        (if next.id = id then some next else none)
    | .dropSessions ids => (db.tokens.get id).filter fun t => !decide (t.sessionId ∈ ids)
    | _ => db.tokens.get id := by
  cases effect <;>
    simp [apply, Database.insertSession, Database.insertToken, Database.rotateSessions,
      Database.consumeTokens, Database.revokeSessions, Database.consumeAuthTokens,
      Database.setPassword, Database.insertAuthToken, Database.deleteAuthTokens,
      Database.deleteSessions, Table.get_insert, Table.get_modify, Table.get_delete]

theorem get_user_apply (id : Nat) : (effect.apply db).users.get id =
    match effect with
    | .reset _ userId passwordHash _ _ =>
      (db.users.get id).map fun u => if id = userId then u.setPassword passwordHash else u
    | _ => db.users.get id := by
  cases effect <;>
    simp [apply, Database.insertSession, Database.insertToken, Database.rotateSessions,
      Database.consumeTokens, Database.revokeSessions, Database.consumeAuthTokens,
      Database.setPassword, Database.insertAuthToken, Database.deleteAuthTokens,
      Database.deleteSessions, Table.get_modify]

theorem issuedSessions_apply : (effect.apply db).issuedSessions =
    match effect with
    | .start session _ _ => session.id :: db.issuedSessions
    | _ => db.issuedSessions := by
  cases effect <;> rfl

theorem issuedTokens_apply : (effect.apply db).issuedTokens =
    match effect with
    | .start _ token _ => token.id :: db.issuedTokens
    | .rotate _ _ next _ _ => next.id :: db.issuedTokens
    | _ => db.issuedTokens := by
  cases effect <;> rfl

theorem signIns_apply : (effect.apply db).signIns =
    match effect with
    | .start session _ verified =>
      (verified.map fun hash => (session.id, hash)).toList ++ db.signIns
    | _ => db.signIns := by
  cases effect <;> rfl

end Effect

/-! ## One row later -/

/-- A session from one state to a later one: revocation is never undone. -/
structure SessionStep (s s' : Session) : Prop where
  id : s'.id = s.id
  userId : s'.userId = s.userId
  expiresAt : s'.expiresAt = s.expiresAt
  revoked : s'.revokedAt = none → s.revokedAt = none
  reason : s'.revokedAt = none → s'.revokedReason = s.revokedReason

structure TokenStep (t t' : SessionRefreshToken) : Prop where
  sessionId : t'.sessionId = t.sessionId
  credentialHash : t'.credentialHash = t.credentialHash
  consumed : ∀ time, t.consumedAt = some time → t'.consumedAt = some time

theorem SessionStep.refl (s : Session) : SessionStep s s :=
  ⟨rfl, rfl, rfl, fun h => h, fun _ => rfl⟩

theorem SessionStep.trans {s₁ s₂ s₃ : Session} (h : SessionStep s₁ s₂)
    (h' : SessionStep s₂ s₃) : SessionStep s₁ s₃ where
  id := h'.id.trans h.id
  userId := h'.userId.trans h.userId
  expiresAt := h'.expiresAt.trans h.expiresAt
  revoked hOpen := h.revoked (h'.revoked hOpen)
  reason hOpen := (h'.reason hOpen).trans (h.reason (h'.revoked hOpen))

theorem TokenStep.refl (t : SessionRefreshToken) : TokenStep t t := ⟨rfl, rfl, fun _ h => h⟩

theorem TokenStep.trans {t₁ t₂ t₃ : SessionRefreshToken} (h : TokenStep t₁ t₂)
    (h' : TokenStep t₂ t₃) : TokenStep t₁ t₃ where
  sessionId := h'.sessionId.trans h.sessionId
  credentialHash := h'.credentialHash.trans h.credentialHash
  consumed time hTime := h'.consumed time (h.consumed time hTime)

/-- A database later on. What has been issued before comes from a row that was there before. -/
structure Later (db db' : Database) : Prop where
  issuedSessions : ∀ id ∈ db.issuedSessions, id ∈ db'.issuedSessions
  issuedTokens : ∀ id ∈ db.issuedTokens, id ∈ db'.issuedTokens
  session : ∀ id ∈ db.issuedSessions, ∀ s', db'.sessions.get id = some s' →
    ∃ s, db.sessions.get id = some s ∧ SessionStep s s'
  token : ∀ id ∈ db.issuedTokens, ∀ t', db'.tokens.get id = some t' → ∃ t,
    db.tokens.get id = some t ∧ TokenStep t t'
  user : ∀ id u, db.users.get id = some u → ∃ u', db'.users.get id = some u'
  signIns : ∀ id ∈ db.issuedSessions, ∀ hash, (id, hash) ∈ db'.signIns → (id, hash) ∈ db.signIns

theorem Later.refl (db : Database) : Later db db where
  issuedSessions _ h := h
  issuedTokens _ h := h
  session _ _ s' h := ⟨s', h, .refl s'⟩
  token _ _ t' h := ⟨t', h, .refl t'⟩
  user _ u h := ⟨u, h⟩
  signIns _ _ _ h := h

theorem Later.trans {db₁ db₂ db₃ : Database} (h : Later db₁ db₂)
    (h' : Later db₂ db₃) : Later db₁ db₃ where
  issuedSessions id hId := h'.issuedSessions id (h.issuedSessions id hId)
  issuedTokens id hId := h'.issuedTokens id (h.issuedTokens id hId)
  session id hId s₃ h₃ := by
    obtain ⟨s₂, h₂, hStep'⟩ := h'.session id (h.issuedSessions id hId) s₃ h₃
    obtain ⟨s₁, h₁, hStep⟩ := h.session id hId s₂ h₂
    exact ⟨s₁, h₁, hStep.trans hStep'⟩
  token id hId t₃ h₃ := by
    obtain ⟨t₂, h₂, hStep'⟩ := h'.token id (h.issuedTokens id hId) t₃ h₃
    obtain ⟨t₁, h₁, hStep⟩ := h.token id hId t₂ h₂
    exact ⟨t₁, h₁, hStep.trans hStep'⟩
  user id u hGet := by
    obtain ⟨u₂, h₂⟩ := h.user id u hGet
    exact h'.user id u₂ h₂
  signIns id hId hash hMem :=
    h.signIns id hId hash (h'.signIns id (h.issuedSessions id hId) hash hMem)

variable {services : Services} {e : LogEntry} {effect : Effect}

theorem Effect.session_origin (hAllowed : effect.Allowed services e) {id : String} {s' : Session}
    (h : (effect.apply e.before).sessions.get id = some s') :
    (∃ token verified, effect = .start s' token verified ∧ id = s'.id ∧
      e.before.sessions.get id = none) ∨
      ∃ s, e.before.sessions.get id = some s ∧ SessionStep s s' := by
  rw [Effect.get_session_apply] at h
  cases effect with
  | nothing => exact .inr ⟨s', h, .refl s'⟩
  | start session token verified =>
    rcases Option.or_eq_some_iff.mp h with hOld | ⟨hNone, hNew⟩
    · exact .inr ⟨s', hOld, .refl s'⟩
    · split at hNew
      · next hId =>
        cases hNew
        exact .inl ⟨token, verified, rfl, hId.symm, hNone⟩
      · cases hNew
  | rotate sessionId tokenId next now metadata =>
    obtain ⟨s, hGet, hEq⟩ := Option.map_eq_some_iff.mp h
    refine .inr ⟨s, hGet, ?_⟩
    subst hEq
    split <;> exact ⟨rfl, rfl, rfl, fun h => h, fun _ => rfl⟩
  | revoke ids revokedAt reason =>
    obtain ⟨s, hGet, hEq⟩ := Option.map_eq_some_iff.mp h
    refine .inr ⟨s, hGet, ?_⟩
    subst hEq
    split
    · exact ⟨rfl, rfl, rfl, fun h => (by cases h), fun h => (by cases h)⟩
    · exact .refl s
  | reset authTokens userId passwordHash ids now =>
    obtain ⟨s, hGet, hEq⟩ := Option.map_eq_some_iff.mp h
    refine .inr ⟨s, hGet, ?_⟩
    subst hEq
    split
    · exact ⟨rfl, rfl, rfl, fun h => (by cases h), fun h => (by cases h)⟩
    · exact .refl s
  | issue older now token => exact .inr ⟨s', h, .refl s'⟩
  | dropAuthTokens ids => exact .inr ⟨s', h, .refl s'⟩
  | dropSessions ids =>
    exact .inr ⟨s', (Option.filter_eq_some_iff.mp h).1, .refl s'⟩

theorem Effect.token_origin (hAllowed : effect.Allowed services e) {id : String}
    {t' : SessionRefreshToken} (h : (effect.apply e.before).tokens.get id = some t') :
    (id ∉ e.before.issuedTokens ∧ t'.id = id ∧
      ((∃ session verified, effect = .start session t' verified) ∨
        ∃ sessionId tokenId now metadata, effect = .rotate sessionId tokenId t' now metadata)) ∨
      ∃ t, e.before.tokens.get id = some t ∧ TokenStep t t' := by
  rw [Effect.get_token_apply] at h
  cases effect with
  | start session token verified =>
    rcases Option.or_eq_some_iff.mp h with hOld | ⟨hNone, hNew⟩
    · exact .inr ⟨t', hOld, .refl t'⟩
    · split at hNew
      · next hId =>
        cases hNew
        exact .inl ⟨hId ▸ hAllowed.2.2.1, hId, .inl ⟨session, verified, rfl⟩⟩
      · cases hNew
  | rotate sessionId tokenId next now metadata =>
    rcases Option.or_eq_some_iff.mp h with hOld | ⟨_, hNew⟩
    · obtain ⟨t, hGet, hEq⟩ := Option.map_eq_some_iff.mp hOld
      refine .inr ⟨t, hGet, ?_⟩
      subst hEq
      split
      · next hId =>
        obtain ⟨_, used, _, hUsed, _, _, hOpen, _⟩ := hAllowed.rows
        rw [hId, hUsed] at hGet
        cases hGet
        exact ⟨rfl, rfl, fun time hTime => by cases hOpen.symm.trans hTime⟩
      · exact .refl t
    · split at hNew
      · next hId =>
        cases hNew
        exact .inl ⟨hId ▸ hAllowed.fresh, hId, .inr ⟨sessionId, tokenId, now, metadata, rfl⟩⟩
      · cases hNew
  | dropSessions ids => exact .inr ⟨t', (Option.filter_eq_some_iff.mp h).1, .refl t'⟩
  | _ => exact .inr ⟨t', h, .refl t'⟩

theorem Effect.session_gone {db : Database} {id : String} {t : SessionRefreshToken}
    (h : db.tokens.get id = some t) (hGone : (effect.apply db).tokens.get id = none) :
    (effect.apply db).sessions.get t.sessionId = none := by
  rw [Effect.get_token_apply] at hGone
  rw [Effect.get_session_apply]
  cases effect with
  | dropSessions ids =>
    have hMem : t.sessionId ∈ ids := by simpa [h] using hGone
    refine Option.filter_eq_none_iff.mpr fun s hGet => ?_
    rw [Table.key_of_get hGet]
    simp [hMem]
  | _ => simp [h] at hGone

theorem Effect.user_kept {id : Nat} {u : User} (h : e.before.users.get id = some u) :
    ∃ u', (effect.apply e.before).users.get id = some u' := by
  rw [Effect.get_user_apply]
  cases effect with
  | reset authTokens userId passwordHash ids now =>
    simp only [h, Option.map_some]
    exact ⟨_, rfl⟩
  | _ => exact ⟨u, h⟩

theorem Legal.later (h : Legal services e) : Later e.before e.after := by
  obtain ⟨effect, hAllowed, hAfter⟩ := h
  rw [hAfter]
  constructor
  · intro id hId
    rw [Effect.issuedSessions_apply]
    cases effect <;> first | exact hId | exact List.mem_cons_of_mem _ hId
  · intro id hId
    rw [Effect.issuedTokens_apply]
    cases effect <;> first | exact hId | exact List.mem_cons_of_mem _ hId
  · intro id hId s' hGet
    rcases effect.session_origin hAllowed hGet with ⟨token, verified, rfl, rfl, _⟩ | hOld
    · exact absurd hId hAllowed.1
    · exact hOld
  · intro id hId t' hGet
    rcases effect.token_origin hAllowed hGet with ⟨hFresh, _⟩ | hOld
    · exact absurd hId hFresh
    · exact hOld
  · exact fun id u hGet => effect.user_kept hGet
  · intro id hId hash hMem
    rw [Effect.signIns_apply] at hMem
    cases effect with
    | start session token verified =>
      rcases List.mem_append.mp hMem with hNew | hOld
      · obtain ⟨_, _, hEq⟩ := Option.map_eq_some_iff.mp (Option.mem_toList.mp hNew)
        cases hEq
        exact absurd hId hAllowed.1
      · exact hOld
    | _ => exact hMem

theorem later_of_path {db db' : Database} {t t' : Nat} {es : List LogEntry}
    (h : Path (Legal services) db t es db' t') :
    Later db db' :=
  h.preserves (P := fun (db₁ : Database) _ => Later db db₁) (fun _ _ _ _ hSame => hSame)
    (fun _ _ hLegal hSoFar => hSoFar.trans hLegal.later) (.refl db)

end Pixaeron.Auth
