import Pixaeron.Auth.Verified.SignIn

/-! # Verified: password recovery and clean-up

A reset has the lock of its user from the moment it sets the password. Nobody signs in with a
password from then on until it commits, so it revokes all sessions of earlier sign-ins.
-/

namespace Pixaeron.Auth

open Transactions Transactions.Script

variable {services : Services} {genesis : Genesis} {call : Call} {s : Shared auth Call}
  {replies : List Unit}

/-- `WHERE id = … AND …` finds at most one row. -/
theorem select_nil_of_length_ne_one {κ ρ : Type} [DecidableEq κ] {key : ρ → κ} {t : Table key}
    {p : ρ → Bool} {k : κ} (hKey : ∀ r, p r = true → key r = k)
    (hLength : (t.select p).length ≠ 1) : t.select p = [] := by
  refine List.eq_nil_iff_forall_not_mem.mpr fun r hMem => hLength ?_
  have hGet (r' : ρ) (hMem' : r' ∈ t.select p) : t.get k = some r' := by
    obtain ⟨hRow, hp⟩ := Table.mem_select.mp hMem'
    rw [← hKey r' hp]
    exact Table.get_of_mem hRow
  rw [Table.select_eq_singleton hMem hGet]
  rfl

/-! ## resetPassword -/

/-- What holds of a reset that started in `s₀` once it has returned that the password is reset. -/
def DoneReset (s₀ : Shared auth Call) (token passwordHash : String) (s : Shared auth Call) : Prop :=
  ∃ e ∈ s.history.drop s₀.history.length, e.call = .resetPassword token passwordHash ∧
    ∃ userId, HasReset e userId passwordHash

theorem DoneReset.later {s₀ s s' : Shared auth Call} {token passwordHash : String}
    (h : DoneReset s₀ token passwordHash s) (hRely : Reaches services genesis s s') :
    DoneReset s₀ token passwordHash s' := by
  obtain ⟨e, hMem, hReset⟩ := h
  obtain ⟨later, hLater⟩ := rely_extends hRely
  refine ⟨e, ?_, hReset⟩
  rw [← hLater, List.drop_append]
  exact List.mem_append_left _ hMem

theorem wp_finishReset {token passwordHash : String} {current : AuthToken} {now : Nat}
    {l : Local auth} {tx : LocalTx auth} {authTokens : List String} {db₁ : Database}
    {reads : List (Statement × Database)} {name : Statement}
    (hCall : call = .resetPassword token passwordHash) (hTx : l.tx = some tx)
    (hPending : ∀ db, tx.pending db = db.consumeAuthTokens authTokens now)
    (hReads : tx.reads = (name, db₁) :: reads)
    (hEarlier : ∃ s₁, Reaches services genesis s₁ s ∧ s₁.db.sessions = db₁.sessions)
    (hHeld : ∀ id ∈ authTokens, l.held (.authToken id)) {s₀ : Shared auth Call}
    (hStart : Reaches services genesis s₀ s) :
    Wp (discipline services genesis) call ((setPassword current.userId passwordHash).bind fun _ =>
        (revokeSessions .revokeOldSessions
          (fun s => s.userId = current.userId ∧ s.revokedAt = none) now
          .passwordChanged).bind fun _ => .done (.ok .reset : Except Failure PasswordResetStatus))
      (fun a => Wp (discipline services genesis) call (.commit (.done a)) fun result l s =>
        AtRest l ∧ (result = .ok .reset → DoneReset s₀ token passwordHash s)) l s := by
  unfold setPassword
  refine wp_statement hTx fun s₃ v₃ hRely₃ hDb₃ => ?_
  refine wp_require fun hFound => ?_
  have hUsers₃ : v₃.db.users = s₃.db.users := by
    rw [hDb₃, hPending]
    rfl
  obtain ⟨u, hUser⟩ := Option.isSome_iff_exists.mp hFound
  refine wp_statement rfl fun s₄ v₄ hRely₄ hDb₄ => ?_
  have hSessions₄ : v₄.db.sessions = s₄.db.sessions := by
    rw [hDb₄]
    change ((tx.pending s₄.db).setPassword _ _).sessions = _
    rw [hPending]
    rfl
  have hUserHeld {r : Resource} (hr : r = .user current.userId) :
      r ∈ if (v₃.db.users.get current.userId).isSome = true then [Resource.user current.userId]
        else [] := by
    rw [if_pos hFound, hr]
    exact List.mem_singleton_self _
  refine Wp.done safe fun s₅ hRely₅ => ?_
  refine wp_commit rfl fun s₆ hRely₆ => ?_
  have hRely := hRely₅.trans hRely₆
  have hSelected {id : String} {row : Session} (hGet : s₄.db.sessions.get id = some row)
      (hOwner : row.userId = current.userId) (hOpen : row.revokedAt = none) :
      id ∈ (v₄.db.sessions.select fun s => s.userId = current.userId ∧
        s.revokedAt = none).map Session.id := by
    rw [hSessions₄]
    exact Table.mem_map_select.mpr ⟨row, hGet, decide_eq_true ⟨hOwner, hOpen⟩⟩
  refine Committing.also (.reset authTokens current.userId passwordHash
    ((v₄.db.sessions.select fun s => s.userId = current.userId ∧ s.revokedAt = none).map Session.id)
      now) ?_
    fun hCommitting _ => wp_return fun s₇ hRely₇ => ⟨⟨_, rfl⟩, fun _ => DoneReset.later ?_ hRely₇⟩
  · exact {
      before := rfl
      endedAt := rfl
      allowed := {
        call := ⟨token, hCall⟩
        user := by
          refine ⟨u, rely_user hRely (.inl (.inr (hUserHeld rfl)))
            (rely_user hRely₄ (.inr (hUserHeld rfl)) ?_)⟩
          rw [← hUsers₃]
          exact hUser
        revoked := fun row hRow hOwner hOpen =>
          rely_sign_ins hRely (.inl (.inr (hUserHeld rfl))) (fun id row hGet hOwner hOpen =>
            .inl (hSelected hGet hOwner hOpen))
            row.id row (Table.get_of_mem hRow) hOwner hOpen
        unrevoked := by
          intro id hMem row hGet
          obtain ⟨row₄, hGet₄, hBoth⟩ := Table.mem_map_select.mp hMem
          have hLock : Resource.session id ∈ (v₄.db.sessions.select fun s =>
            s.userId = current.userId ∧
              s.revokedAt = none).map fun s => Resource.session s.id := by
            obtain ⟨row', hRow', hId⟩ := List.mem_map.mp hMem
            exact List.mem_map.mpr ⟨row', hRow', by rw [hId]⟩
          rw [hSessions₄] at hGet₄
          cases (rely_session hRely (.inr hLock) hGet₄).symm.trans hGet
          exact (of_decide_eq_true hBoth).symm
        began := by
          obtain ⟨s₁, hReach, hSame⟩ := hEarlier
          refine ⟨name, db₁,
            by simp [Shared.entry, hReads], fun row hRow hOwner row₆ hGet₆ hOpen₆ => ?_⟩
          have hRow₁ : s₁.db.sessions.get row.id = some row := by
            rw [hSame]
            exact Table.get_of_mem hRow
          have hIssued₁ := (Sound.consistent hReach.before).sessionIssued _ _ hRow₁
          have hReach₄ := hReach.trans ((reaches_of_rely hRely₃).trans (reaches_of_rely hRely₄))
          obtain ⟨row₄, hGet₄, hStep⟩ := (rely_later hRely).session row.id
            ((rely_later hReach₄).issuedSessions _ hIssued₁) row₆ hGet₆
          obtain ⟨row', hGet', hStep'⟩ := (rely_later hReach₄).session row.id hIssued₁ row₄ hGet₄
          cases hRow₁.symm.trans hGet'
          exact hSelected hGet₄ (hStep'.userId.trans hOwner) (hStep.revoked hOpen₆) }
      apply := by
        change (((tx.pending s₆.db).setPassword _ _).revokeSessions _ _ _) = _
        rw [hPending]
        rfl
      held := by
        rintro r (⟨id, hMem, rfl⟩ | rfl | ⟨id, hMem, rfl⟩)
        · exact .inl (.inl (hHeld id hMem))
        · exact .inl (.inr (hUserHeld rfl))
        · obtain ⟨row, hRow, hId⟩ := List.mem_map.mp hMem
          exact .inr (List.mem_map.mpr ⟨row, hRow, by rw [hId]⟩)
      justified := by
        intro ids at_ h
        cases h }
  · refine ⟨_, ?_, hCall, current.userId, authTokens, _, now, hCommitting.allowed,
      hCommitting.apply⟩
    have hPrefix :=
      (rely_extends (hStart.trans ((reaches_of_rely hRely₃).trans ((reaches_of_rely hRely₄).trans
      (reaches_of_rely hRely))))).length_le
    rw [Shared.record_history, List.drop_append_of_le_length hPrefix]
    exact List.mem_append_right _ (List.mem_singleton_self _)

theorem classify_ne_reset (authToken : Option AuthToken) (now : Nat) :
    classifyResetToken authToken now ≠ .error .reset := by
  unfold classifyResetToken
  split
  · simp
  · split
    · simp
    · split <;> simp

theorem wp_resetPassword {token passwordHash : String}
    (hCall : call = .resetPassword token passwordHash) (s₀ : Shared auth Call) :
    Wp (discipline services genesis) call (resetPassword services token passwordHash)
      (fun result l s => AtRest l ∧ (result = .ok .reset → DoneReset s₀ token passwordHash s))
        (.outside replies) s₀ := by
  unfold resetPassword findAuthToken
  refine wp_read fun s₁ v₁ hRely₁ _ hRecord₁ => ?_
  refine wp_clock fun s₂ hRely₂ => ?_
  simp only [Script.bind_done]
  split
  · next rejection hRejected =>
    refine wp_return fun _ _ => ⟨⟨_, rfl⟩, fun hReset => ?_⟩
    cases hReset
    exact absurd hRejected (classify_ne_reset _ _)
  refine Wp.transaction (fun error replies' s' _ => wp_return
    fun _ _ => ⟨⟨_, rfl⟩, fun h => by cases h⟩) fun s₃ hRely₃ => ?_
  refine wp_clock fun s₄ hRely₄ => ?_
  refine wp_statement rfl fun s₅ v₅ hRely₅ hDb₅ => ?_
  simp only [Script.bind_done]
  have hNothing {l : Local auth} {tx : LocalTx auth} {s : Shared auth Call}
    {a : Except Failure PasswordResetStatus}
      (hTx : l.tx = some tx) (hPending : ∀ db, tx.pending db = db) (hOther : a ≠ .ok .reset) :
      Wp (discipline services genesis) call (.done a)
        (fun a => Wp (discipline services genesis) call (.commit (.done a)) fun result l s =>
          AtRest l ∧ (result = .ok .reset → DoneReset s₀ token passwordHash s)) l s := by
    refine Wp.done safe fun s' _ => wp_commit hTx fun s'' _ => ⟨⟨.nothing, ?_⟩, fun _ =>
      wp_return fun _ _ => ⟨⟨_, rfl⟩, fun h => absurd h hOther⟩⟩
    rw [hPending]
    exact committing_nothing
  split
  · next rejection hRejected =>
    refine hNothing rfl (fun _ => rfl) fun hReset => ?_
    cases hReset
    exact classify_ne_reset _ _ hRejected
  next current hCurrent =>
  refine wp_statement rfl fun s₆ v₆ hRely₆ hDb₆ => ?_
  simp only [Script.bind_done]
  split
  · next hNot =>
    refine hNothing rfl (fun db => ?_) fun h => by cases h
    have hNil : (v₆.db.authTokens.select fun t => t.id = current.id ∧ t.consumedAt = none ∧
      s₄.now < t.expiresAt) = [] :=
      select_nil_of_length_ne_one (fun t h => (of_decide_eq_true h).1) hNot
    dsimp only [Function.comp_apply, id]
    rw [hNil, List.map_nil, Database.consumeAuthTokens_nil]
  · have hStart := (hRely₁.trans hRecord₁).trans ((reaches_of_rely hRely₂).trans (hRely₃.trans
      ((reaches_of_rely hRely₄).trans ((reaches_of_rely hRely₅).trans (reaches_of_rely hRely₆)))))
    refine wp_finishReset hCall rfl (fun db => rfl) rfl ⟨s₅, reaches_of_rely hRely₆, ?_⟩
      (fun id hMem => ?_) hStart
    · rw [hDb₅]
      rfl
    · obtain ⟨row, hRow, hId⟩ := List.mem_map.mp hMem
      exact .inr (List.mem_map.mpr ⟨row, hRow, by rw [hId]⟩)

/-! ## Issuing tokens -/

theorem wp_requestPasswordReset {email : String} {drawn : DrawnAuthToken} :
    Wp (discipline services genesis) call (requestPasswordReset services email drawn)
      (fun _ l _ => AtRest l)
      (.outside replies) s := by
  unfold requestPasswordReset
  refine wp_read fun s₁ v₁ _ _ hRecord => ?_
  simp only [Script.bind_done]
  split
  · split
    · next user _ _ =>
      refine Wp.bind hRecord.inv (Wp.mono (Q := fun _ l _ => AtRest l) ?_ fun result l s _ h => ?_)
      · refine Wp.transaction (fun error replies' s' _ => wp_return fun _ _ => ⟨_, rfl⟩) fun s₂ _ =>
          ?_
        unfold issueInTransaction consumeAuthTokens createAuthToken
        simp only [Script.bind_eq, Script.bind_assoc]
        refine wp_clock fun s₃ _ => ?_
        refine wp_statement rfl fun s₄ v₄ _ _ => ?_
        refine wp_statement rfl fun s₅ v₅ _ _ => ?_
        refine wp_statement rfl fun s₆ v₆ _ _ => ?_
        simp only [Script.bind_done]
        split
        swap
        · exact wp_fail
        next hAccepted =>
        refine Wp.done safe fun s₇ _ => ?_
        refine wp_commit rfl fun s₈ _ =>
          ⟨⟨.issue ((v₅.db.authTokens.select (AuthToken.activeFor user.id .passwordReset)).map
          AuthToken.id) s₃.now ⟨drawn.id, user.id, .passwordReset,
            services.digest drawn.token, s₃.now + tokenTtlMs .passwordReset, none⟩, ?_⟩, fun _ =>
              wp_return fun _ _ => ⟨_, rfl⟩⟩
        exact {
          before := rfl
          endedAt := rfl
          allowed := trivial
          apply := by
            dsimp only [Shared.entry, Function.comp_apply]
            rw [if_pos hAccepted]
            rfl
          held := by
            rintro r ⟨id, hMem, rfl⟩
            obtain ⟨row, hRow, hId⟩ := List.mem_map.mp hMem
            exact .inl (.inr (List.mem_map.mpr ⟨row, hRow, by rw [hId]⟩))
          justified := by
            intro ids at_ h
            cases h }
      · obtain ⟨replies, rfl⟩ := h
        exact wp_return fun _ _ => ⟨_, rfl⟩
    · exact wp_return fun _ _ => ⟨_, rfl⟩
  · exact wp_return fun _ _ => ⟨_, rfl⟩

/-! ## Clean-up -/

theorem wp_deleteExpiredData :
    Wp (discipline services genesis) call deleteExpiredData (fun _ l _ => AtRest l)
      (.outside replies) s := by
  unfold deleteExpiredData
  refine wp_clock fun s₁ _ => ?_
  simp only [Script.bind_done]
  refine wp_autocommit fun s₂ v₂ _ hDb₂ => ⟨⟨.dropAuthTokens ((v₂.db.authTokens.select fun t =>
    t.expiresAt < s₁.now - 7 * dayMs ∨
      passedBefore t.consumedAt (s₁.now - 7 * dayMs)).map AuthToken.id), ?_⟩, fun _ => ?_⟩
  · exact {
      before := rfl
      endedAt := rfl
      allowed := trivial
      apply := rfl
      held := by
        rintro r ⟨id, hMem, rfl⟩
        obtain ⟨row, hRow, hId⟩ := List.mem_map.mp hMem
        exact List.mem_map.mpr ⟨row, hRow, by rw [hId]⟩
      justified := by
        intro ids at_ h
        cases h }
  refine wp_autocommit fun s₃ v₃ _ hDb₃ => ⟨⟨.dropSessions ((v₃.db.sessions.select fun s =>
    s.expiresAt < s₁.now - 30 * dayMs ∨
      passedBefore s.revokedAt (s₁.now - 30 * dayMs)).map Session.id), ?_⟩,
    fun _ => wp_return fun _ _ => ⟨_, rfl⟩⟩
  exact {
    before := rfl
    endedAt := rfl
    allowed := trivial
    apply := rfl
    held := by
      rintro r (⟨id, hMem, rfl⟩ | ⟨t, hToken, hMem, rfl⟩)
      · obtain ⟨row, hRow, hId⟩ := List.mem_map.mp hMem
        exact List.mem_append_left _ (List.mem_map.mpr ⟨row, hRow, by rw [hId]⟩)
      · refine List.mem_append_right _ (List.mem_map.mpr ⟨t,
          Table.mem_select.mpr ⟨?_, decide_eq_true hMem⟩, rfl⟩)
        rw [hDb₃]
        exact hToken
    justified := by
      intro ids at_ h
      cases h }

end Pixaeron.Auth
