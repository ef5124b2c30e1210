import Pixaeron.Transactions.Endings
import Pixaeron.Auth.Verified.OneTimeTokens

/-! # One-time tokens are used once

Of the tokens of one user and kind only the newest is unconsumed, and a token is accepted only
while it is unconsumed. A hash whose rows are all consumed never comes back.
-/

namespace Pixaeron.Auth.OneTime

open Transactions Transactions.Script

variable {services : Services} {call : AccountCall} {s : Shared auth AccountCall} {α : Type}

/-! ## Google sign-in leaves the tokens alone -/

theorem writes_createUser {new : User} : (createUser new).Writes Calm fun _ => False :=
  Writes.bind (Writes.change fun _ => calm_createUser) fun clash => by cases clash <;> trivial

theorem calm_insertAccount {new : Account} {v : View auth} :
    Calm fun db => if (v.db.accounts.get new.key).isNone then db.insertAccount new else db := by
  intro db
  dsimp only
  split <;> exact ⟨rfl, rfl⟩

theorem writes_createAccount {new : Account} : (createAccount new).Writes Calm fun _ => False :=
  Writes.bind (Writes.change fun _ => calm_insertAccount) fun _ => Writes.check

theorem writes_googleUser {profile : GoogleUserProfile} {consent : LegalConsent}
    {drawn : DrawnUser} :
    (googleUser profile consent drawn).Writes Calm fun _ => False := by
  refine Writes.transaction (Writes.bind (Writes.bind (Writes.query calm_id) fun account => ?_)
    fun _ => trivial) fun error => ?_
  · cases account with
    | some account => trivial
    | none =>
      exact (Writes.query calm_id).bind fun _ => Writes.check.bind fun _ =>
        Writes.check.bind fun _ =>
        writes_createUser.bind fun _ => writes_createAccount.bind fun _ => trivial
  · split
    · refine (Writes.query calm_id).bind fun account => ?_
      cases account with
      | some account => trivial
      | none =>
        refine (Writes.query calm_id).bind fun existingUser => ?_
        split <;> trivial
    · trivial

theorem calm_insertSession {session : Session} {expectedPasswordHash : Option String}
    {v : View auth} :
    Calm fun db =>
      if session.id ∈ v.db.issuedSessions then db
      else db.insertSession session expectedPasswordHash := by
  intro db
  dsimp only
  split <;> exact ⟨rfl, rfl⟩

theorem calm_insertToken {token : SessionRefreshToken} {v : View auth} :
    Calm fun db => if token.id ∈ v.db.issuedTokens then db else db.insertToken token := by
  intro db
  dsimp only
  split <;> exact ⟨rfl, rfl⟩

theorem writes_createSession {userId : Nat} {metadata : SessionRequestMetadata}
    {drawn : DrawnSession} {rememberMe : Bool} :
    (createSession services userId metadata drawn rememberMe none).Writes Calm fun _ => False := by
  refine Writes.readClock.bind fun now => Writes.transaction ?_ fun _ => trivial
  refine Writes.bind (trivial : (checkPassword userId none).Writes Calm fun _ => False) fun _ => ?_
  refine (Writes.query calm_id).bind fun user => ?_
  cases user with
  | none => trivial
  | some user =>
    refine Writes.bind (Writes.bind (Writes.change fun _ => calm_insertSession)
      fun _ => Writes.check) fun _ => ?_
    exact Writes.bind (Writes.bind (Writes.change fun _ => calm_insertToken) fun _ => Writes.check)
      fun _ => trivial

theorem writes_googleLogin {payload : GoogleTokenPayload} {consent : LegalConsent}
    {metadata : SessionRequestMetadata} {user : DrawnUser} {session : DrawnSession}
    {rememberMe : Bool} :
    (googleLogin services payload consent metadata user session rememberMe).Writes Calm fun _ =>
      False := by
  unfold googleLogin
  split
  · trivial
  split
  · trivial
  · refine writes_googleUser.bind fun found => ?_
    cases found with
    | error error => trivial
    | ok userId => exact writes_createSession

theorem harmless (hIssues : issuesTokens call = false)
    (hPresented : presentedHash services call = none) :
    Harmless (discipline services) call Calm fun _ => False where
  same := calm_id
  comp _ _ := Calm.comp
  free _ _ := trivial
  record held s e change hSound _ hCall hBefore hEnded hCalm hAfter hKept := by
    obtain ⟨hTokens, hIssued⟩ := hCalm s.db
    refine guarantee_calm hSound hBefore hEnded (fun hError => by rw [hBefore, hKept hError])
      (fun hSame => ?_)
      (by rw [hAfter, hBefore, hTokens]) (by rw [hAfter, hBefore, hIssued]) fun tokenHash hSpends =>
        ?_
    · cases hIssues.symm.trans (hCall ▸ hSame)
    · cases hPresented.symm.trans (hCall ▸ hSpends.presented)
  ask _ _ _ _ _ _ hMild := hMild.elim

/-! ## The system -/

theorem wp_outcome {script : Script auth α} {outcome : α → AccountOutcome}
    (hSound : (ledger services).Sound s)
    (h : Wp (discipline services) call script (fun _ _ _ => True) (.outside []) s) :
    Wp (discipline services) call (script.bind fun a => .done (outcome a)) (fun _ _ _ => True)
      (.outside []) s :=
  Wp.bind hSound (h.mono fun _ _ _ _ _ => Wp.done safe_any fun _ _ => trivial)

theorem verified_accounts : Verified (discipline services) (accountSystem services) where
  tick s ms hSound := Ledger.guarantee_tick hSound trivial (fun _ => trivial) fun _ _ => trivial
  spawn s call ext script hSound h := by
    cases h
    refine ⟨Ledger.guarantee_setExt hSound trivial trivial (fun _ _ => trivial) fun _ _ _ =>
      trivial, ?_⟩
    have hSound' : (ledger services).Sound (s.setExt s.ext) := hSound
    cases call with
    | register input passwordHash user token => exact wp_outcome hSound' (wp_register rfl)
    | resendEmailVerification email drawn =>
      exact wp_outcome hSound' (wp_resendEmailVerification rfl)
    | requestPasswordReset email drawn => exact wp_outcome hSound' (wp_requestPasswordReset rfl)
    | verifyEmail token => exact wp_outcome hSound' (wp_verifyEmail rfl)
    | resetPassword token passwordHash => exact wp_outcome hSound' (wp_resetPassword rfl)
    | deleteExpiredData => exact wp_outcome hSound' (wp_deleteExpiredData rfl)
    | googleLogin payload consent metadata user session rememberMe =>
      exact Wp.of_writes (harmless rfl rfl) (writes_googleLogin.bind fun _ => trivial) fun tx hTx =>
        by cases hTx

theorem sound_of_run {now : Nat} {w : World auth AccountCall AccountOutcome}
    (h : World.Leads (accountSystem services) (accountStart now) w) :
    (ledger services).Sound w.shared := by
  have hStart : (ledger services).Sound (accountStart now).shared :=
    ⟨.rest (Nat.zero_le _), trivial⟩
  exact ((World.meets_idle hStart fun _ => trivial).leads verified_accounts h
    fun _ _ => trivial).1.inv

/-! ## Hashes -/

def Issues (e : AccountEntry) (t : AuthToken) : Prop :=
  t ∈ e.after.authTokens.rows ∧ e.before.authTokens.get t.id = none

/-- The hash has been used, and no row with it can be consumed any more. -/
structure Dead (tokenHash : String) (db : Database) : Prop where
  issued : ∃ id, (id, tokenHash) ∈ db.issuedAuthTokens
  consumed : ∀ t ∈ db.authTokens.rows, t.tokenHash = tokenHash → t.consumedAt ≠ none

/-- The hash has been used for a token of this user and kind. -/
structure Belongs (t : AuthToken) (db : Database) : Prop where
  issued : ∃ id, (id, t.tokenHash) ∈ db.issuedAuthTokens
  owner : ∀ t' ∈ db.authTokens.rows, t'.tokenHash = t.tokenHash →
    t'.userId = t.userId ∧ t'.type = t.type

section Entry

variable {e : AccountEntry} {inserted : Option AuthToken} {tokenHash : String} {t t' : AuthToken}

theorem Does.inserted_of_issues (h : Does services e inserted)
    (hIssues : Issues e t) : inserted = some t := by
  rcases h.rows t hIssues.1 with hInserted | ⟨old, hOld, hAges⟩
  · exact hInserted
  · exact absurd hAges.id_eq.symm (Table.get_eq_none_iff.mp hIssues.2 old hOld)

theorem Does.aged (h : Does services e inserted) {id : String}
    (hIssued : (id, tokenHash) ∈ e.before.issuedAuthTokens) (hMem : t ∈ e.after.authTokens.rows)
    (hHash : t.tokenHash = tokenHash) : ∃ old ∈ e.before.authTokens.rows, Ages old t := by
  rcases h.rows t hMem with hInserted | hAged
  · exact absurd hHash.symm (h.fresh t hInserted _ hIssued).2
  · exact hAged

theorem Dead.step (h : Dead tokenHash e.before) (hDoes : Does services e inserted) :
    Dead tokenHash e.after := by
  obtain ⟨id, hIssued⟩ := h.issued
  refine ⟨⟨id, hDoes.issued_of_before _ hIssued⟩, fun t ht hHash hOpen => ?_⟩
  obtain ⟨old, hOld, hAges⟩ := hDoes.aged hIssued ht hHash
  obtain rfl := hAges.eq_of_unconsumed hOpen
  exact h.consumed t hOld hHash hOpen

theorem Dead.unspent (h : Dead tokenHash e.before) (hDoes : Does services e inserted) :
    ¬ Spends services e tokenHash := by
  intro hSpends
  obtain ⟨t, ht, hHash, hOpen, _⟩ := hDoes.spent tokenHash hSpends
  exact h.consumed t ht hHash hOpen

theorem dead_of_spends (hConsistent : Consistent e.before) (hDoes : Does services e inserted)
    (hSpends : Spends services e tokenHash) : Dead tokenHash e.after := by
  obtain ⟨t, ht, rfl, _, hConsumed⟩ := hDoes.spent tokenHash hSpends
  have hIssued := hDoes.issued_of_before _ (hConsistent.remembered t ht)
  have hAfter := hConsistent.step hDoes
  refine ⟨⟨t.id, hIssued⟩, fun t' ht' hHash => hConsumed t' ht' ?_⟩
  exact (Prod.mk.inj (hAfter.apart _ (hAfter.remembered t' ht') _ hIssued (.inr hHash))).1

theorem Belongs.step (h : Belongs t e.before) (hDoes : Does services e inserted) :
    Belongs t e.after := by
  obtain ⟨id, hIssued⟩ := h.issued
  refine ⟨⟨id, hDoes.issued_of_before _ hIssued⟩, fun t' ht' hHash => ?_⟩
  obtain ⟨old, hOld, hAges⟩ := hDoes.aged hIssued ht' hHash
  rw [hAges.owner_eq.1, hAges.owner_eq.2]
  exact h.owner old hOld (hAges.hash_eq ▸ hHash)

theorem belongs_of_issues (hConsistent : Consistent e.before) (hDoes : Does services e inserted)
    (hIssues : Issues e t) :
    Belongs t e.after := by
  have hAfter := hConsistent.step hDoes
  refine ⟨⟨t.id, hAfter.remembered t hIssues.1⟩, fun t' ht' hHash => ?_⟩
  have hId : t'.id = t.id :=
    (Prod.mk.inj (hAfter.apart _ (hAfter.remembered t' ht') _ (hAfter.remembered t hIssues.1)
      (.inr hHash))).1
  have hGet := Table.get_of_mem ht'
  rw [hId, Table.get_of_mem hIssues.1] at hGet
  cases hGet
  exact ⟨rfl, rfl⟩

theorem Belongs.dead (h : Belongs t e.before) (hDoes : Does services e inserted)
    (hIssues : Issues e t') (hUser : t'.userId = t.userId) (hType : t'.type = t.type) :
    Dead t.tokenHash e.after := by
  have hAfter := h.step hDoes
  refine ⟨hAfter.issued, fun r hr hHash hOpen => ?_⟩
  obtain ⟨hUser', hType'⟩ := hAfter.owner r hr hHash
  have hInserted := hDoes.inserted_of_issues hIssues
  have hSame : r = t' := hDoes.alone t' hInserted r hr
    (activeFor_iff.mpr ⟨hUser'.trans hUser.symm, hType'.trans hType.symm, hOpen⟩)
  obtain ⟨id, hIssued⟩ := h.issued
  exact (hDoes.fresh t' hInserted _ hIssued).2 (hSame ▸ hHash.symm)

end Entry

/-! ## Runs -/

/-- Another token of the same user and kind has been issued after the one of this hash. -/
def Superseded (history : List AccountEntry) (tokenHash : String) : Prop :=
  ∃ e e' t t', [e, e'].Sublist history ∧ Issues e t ∧ Issues e' t' ∧ t.tokenHash = tokenHash ∧
    t'.userId = t.userId ∧ t'.type = t.type

/-- No user has two unconsumed tokens of one kind. -/
def OneActive (db : Database) : Prop :=
  ∀ t ∈ db.authTokens.rows, ∀ t' ∈ db.authTokens.rows, t.consumedAt = none → t'.consumedAt = none →
    t.userId = t'.userId → t.type = t'.type → t = t'

theorem Consistent.oneActive {db : Database} (h : Consistent db) : OneActive db :=
  fun t ht t' ht' hOpen hOpen' hUser hType =>
    h.active t' ht' hOpen' t ht (activeFor_iff.mpr ⟨hUser, hType, hOpen⟩)

theorem dead_of_path {es : List AccountEntry} {db db' : Database} {time time' : Nat}
    {tokenHash : String} (h : Path (Legal services) db time es db' time')
    (hDead : Dead tokenHash db) : Dead tokenHash db' :=
  h.preserves (P := fun (db : Database) _ => Dead tokenHash db) (fun _ _ _ _ hSame => hSame)
    (fun _ _ ⟨_, hDoes⟩ hHere => hHere.step hDoes) hDead

theorem belongs_of_path {es : List AccountEntry} {db db' : Database} {time time' : Nat}
    {t : AuthToken} (h : Path (Legal services) db time es db' time')
    (hBelongs : Belongs t db) : Belongs t db' :=
  h.preserves (P := fun (db : Database) _ => Belongs t db) (fun _ _ _ _ hSame => hSame)
    (fun _ _ ⟨_, hDoes⟩ hHere => hHere.step hDoes) hBelongs

theorem Sound.dead_of_spends (h : (ledger services).Sound s) {e : AccountEntry} (he : e ∈ s.history)
    {tokenHash : String} (hSpends : Spends services e tokenHash) : Dead tokenHash s.db := by
  obtain ⟨past, later, hSplit⟩ := List.append_of_mem he
  have hPath := h.1
  rw [hSplit] at hPath
  obtain ⟨⟨_, hFirst⟩, ⟨_, hDoes⟩, hLast⟩ := hPath.around
  exact dead_of_path hLast (OneTime.dead_of_spends
    (consistent_of_path hFirst consistent_empty) hDoes hSpends)

theorem Sound.dead_of_superseded (h : (ledger services).Sound s) {tokenHash : String}
    (hSuperseded : Superseded s.history tokenHash) : Dead tokenHash s.db := by
  obtain ⟨e, e', t, t', hSub, hIssues, hIssues', rfl, hUser, hType⟩ := hSuperseded
  obtain ⟨_, _, _, ⟨_, hFirst⟩, ⟨_, hDoes⟩, ⟨_, hMiddle⟩, ⟨_, hDoes'⟩, hLast⟩ := h.1.between hSub
  have hConsistent := consistent_of_path hFirst consistent_empty
  have hBelongs := belongs_of_path hMiddle (belongs_of_issues hConsistent hDoes hIssues)
  exact dead_of_path hLast (hBelongs.dead hDoes' hIssues' hUser hType)

/-! ## Results -/

def accepted : AccountOutcome → Bool
  | .emailVerification (.ok .verified) | .passwordReset (.ok .reset) => true
  | _ => false

/-- A call that presents a token is accepted only by a transaction that has gone through with it. -/
def tokenEndings : Endings auth AccountCall AccountOutcome where
  Result _ e outcome := accepted outcome = true → e.error = none ∧ ∃ p ∈ e.reads, grants p.1 = true
  Rest _ _ _ := True
  Refused _ outcome := accepted outcome = false

theorem follows_refused {past : List AccountEntry} {e : AccountEntry} {outcome : AccountOutcome}
    {Goes : Prop} (h : accepted outcome = false) :
    tokenEndings.Follows past e (.done outcome) Goes :=
  .inl ⟨outcome, rfl, fun hAccepted => by cases h.symm.trans hAccepted⟩

theorem ends_verifyEmail {token : String} :
    ((verifyEmail services token).bind fun a => .done (AccountOutcome.emailVerification a)).Ends
      tokenEndings [] none := by
  refine ⟨fun error e _ _ => follows_refused rfl, fun now v => ?_⟩
  dsimp only [bind_done, bind_eq, pure_eq]
  split
  · exact fun e _ _ => follows_refused rfl
  next found user _ =>
  split
  · exact fun v' e _ _ => follows_refused rfl
  split
  · exact fun e _ _ => follows_refused rfl
  split
  · exact fun e _ _ => follows_refused rfl
  intro v'
  dsimp only [bind_done, bind_eq, pure_eq]
  split
  · refine fun v'' e _ _ => follows_refused ?_
    dsimp only
    split <;> rfl
  · intro v''
    dsimp only [bind_done, bind_eq, pure_eq, require]
    split
    · refine fun e hReads hError =>
        .inl ⟨_, rfl, fun _ => ⟨hError, (.setEmailVerified, v''.db), ?_, rfl⟩⟩
      rw [hReads]
      exact List.mem_append_right _ (List.mem_singleton_self _)
    · trivial

theorem refused_of_rejected {authToken : Option AuthToken} {now : Nat}
    {rejection : PasswordResetStatus} (h : classifyResetToken authToken now = .error rejection) :
    accepted (.passwordReset (.ok rejection)) = false := by
  unfold classifyResetToken at h
  split at h
  · cases h
    rfl
  split at h
  · cases h
    rfl
  split at h
  · cases h
    rfl
  · cases h

theorem ends_resetPassword {token passwordHash : String} :
    ((resetPassword services token passwordHash).bind fun a => .done
      (AccountOutcome.passwordReset a)).Ends
      tokenEndings [] none := by
  intro v e _ _
  refine .inr ⟨trivial, fun now => ?_⟩
  dsimp only [bind_done, bind_eq, pure_eq]
  split
  · next rejection hRejected => exact refused_of_rejected hRejected
  refine ⟨fun error e _ _ => follows_refused rfl, fun now v' => ?_⟩
  dsimp only [bind_done, bind_eq, pure_eq]
  split
  · next rejection hRejected => exact fun e _ _ => follows_refused (refused_of_rejected hRejected)
  intro v''
  dsimp only [bind_done, bind_eq, pure_eq]
  split
  · exact fun e _ _ => follows_refused rfl
  · intro v₃
    dsimp only [bind_done, bind_eq, pure_eq, require]
    split
    · refine fun v₄ e hReads hError =>
        .inl ⟨_, rfl, fun _ => ⟨hError, (.setPassword, v₃.db), ?_, rfl⟩⟩
      rw [hReads]
      simp
    · trivial

theorem ends_accounts (call : AccountCall) (s : Shared auth AccountCall) (ext : Unit)
    (script : Script auth AccountOutcome) (hPresented : presentedHash services call ≠ none)
    (hProgram : accountSystem services call s = some (ext, script)) :
    script.Ends tokenEndings [] none := by
  cases hProgram
  cases call with
  | verifyEmail token => exact ends_verifyEmail
  | resetPassword token passwordHash => exact ends_resetPassword
  | _ => exact absurd rfl hPresented

/-- In this step a call that presents the token returns `VERIFIED` or `RESET`. -/
def Accepts (services : Services) (w w' : World auth AccountCall AccountOutcome)
    (tokenHash : String) : Prop :=
  ∃ action sid call outcome, World.step (accountSystem services) w action = some w' ∧
    World.Action.actor action = some sid ∧ World.Plays w w' sid call ∧
      presentedHash services call = some tokenHash ∧
    w'.returned sid = some outcome ∧ accepted outcome = true

section Accepted

variable {now : Nat} {w w' : World auth AccountCall AccountOutcome} {tokenHash : String}

theorem Accepts.entry (h : World.Leads (accountSystem services) (accountStart now) w)
    (hAccepts : Accepts services w w' tokenHash) :
    ∃ e, Spends services e tokenHash ∧ e.before = w.shared.db ∧
      w'.shared.history = w.shared.history ++ [e] := by
  obtain ⟨action, sid, call, outcome, hStep, hActor, hPlays, hPresented, hReturned, hAccepted⟩ :=
    hAccepts
  obtain ⟨_, _, hEnding⟩ :=
    World.ending_of_step (fun call => presentedHash services call ≠ none)
      (fun _ => tokenEndings) ends_accounts
    (fun _ => rfl) h hStep hActor hPlays (by simp [hPresented])
  rcases hEnding with ⟨_, _, hRefused⟩ | ⟨e, hOf, hHistory, hBefore, _,
    ⟨hGone, _⟩ | ⟨session, hSession, hTx, hFollows⟩⟩
  · cases (hRefused outcome hReturned).symm.trans hAccepted
  · simp [World.returned, hGone] at hReturned
  · obtain ⟨found, hFound, hDone⟩ := World.returned_eq_some.mp hReturned
    cases hSession.symm.trans hFound
    rcases hFollows with ⟨outcome', hDone', hResult⟩ | ⟨_, hGoes⟩
    · cases hDone.symm.trans hDone'
      obtain ⟨hError, hGranted⟩ := hResult hAccepted
      exact ⟨e, ⟨hError, hOf ▸ hPresented, hGranted⟩, hBefore, hHistory⟩
    · rw [hDone] at hGoes
      cases (hGoes : accepted outcome = false).symm.trans hAccepted

theorem Accepts.leads (h : World.Leads (accountSystem services) (accountStart now) w)
    (hAccepts : Accepts services w w' tokenHash) :
    World.Leads (accountSystem services) (accountStart now) w' := by
  obtain ⟨action, _, _, _, hStep, _⟩ := hAccepts
  exact h.tail ⟨action, hStep⟩

/-- Before, the hash still has a row that can be consumed; from then on it has none. -/
theorem Accepts.dies (h : World.Leads (accountSystem services) (accountStart now) w)
    (hAccepts : Accepts services w w' tokenHash) :
    ¬ Dead tokenHash w.shared.db ∧ Dead tokenHash w'.shared.db := by
  obtain ⟨e, hSpends, hBefore, hHistory⟩ := hAccepts.entry h
  have hSound := sound_of_run (hAccepts.leads h)
  obtain ⟨_, hDoes⟩ := hSound.1.legal e (by simp [hHistory])
  exact ⟨fun hDead => (hBefore ▸ hDead : Dead tokenHash e.before).unspent hDoes hSpends,
    Sound.dead_of_spends hSound (by simp [hHistory]) hSpends⟩

theorem dead_of_leads (h : World.Leads (accountSystem services) (accountStart now) w)
    (hLeads : World.Leads (accountSystem services) w w') (hDead : Dead tokenHash w.shared.db) :
    Dead tokenHash w'.shared.db := by
  induction hLeads with
  | refl => exact hDead
  | @tail middle last hFirst hStep ih =>
    obtain ⟨action, hStep⟩ := hStep
    have hSound := sound_of_run ((h.trans hFirst).tail ⟨action, hStep⟩)
    rcases World.step_records hStep with ⟨_, hDb⟩ | ⟨_, _, e, _, _, _, hHistory, hBefore, hAfter⟩
    · rw [hDb]
      exact ih
    · obtain ⟨_, hDoes⟩ := hSound.1.legal e (by simp [hHistory])
      rw [← hAfter]
      exact (hBefore ▸ ih : Dead tokenHash e.before).step hDoes

end Accepted

/-- In every run, no issue of a one-time token fails on the index over the unconsumed ones, no user
has two unconsumed tokens of one kind, no token is accepted that a later one has superseded, and no
token is accepted twice. -/
theorem tokens_used_once {now : Nat} {w : World auth AccountCall AccountOutcome}
    (h : World.Leads (accountSystem services) (accountStart now) w) :
    (∀ e ∈ w.shared.history, issuesTokens e.call = true →
      e.error ≠ some (.uniqueConstraint oneActivePerUserType)) ∧
    OneActive w.shared.db ∧
    ∀ w' tokenHash, Accepts services w w' tokenHash →
      ¬ Superseded w.shared.history tokenHash ∧
      ∀ w₁ w₂, World.Leads (accountSystem services) w' w₁ → ¬ Accepts services w₁ w₂ tokenHash := by
  have hSound := sound_of_run h
  refine ⟨fun e he hIssues => ?_, (Sound.consistent hSound).oneActive,
    fun w' tokenHash hAccepts => ⟨fun hSuperseded => ?_, ?_⟩⟩
  · obtain ⟨_, hDoes⟩ := hSound.1.legal e he
    exact hDoes.unclashed hIssues
  · exact (hAccepts.dies h).1 (Sound.dead_of_superseded hSound hSuperseded)
  · intro w₁ w₂ hLeads hAgain
    have hLater := hAccepts.leads h
    exact (hAgain.dies (hLater.trans hLeads)).1 (dead_of_leads hLater hLeads (hAccepts.dies h).2)

namespace Sample

open Auth.Sample

def old : AuthToken := ⟨"1", 1, .emailVerification, "old", 86400000, none⟩

def new : AuthToken := ⟨"2", 1, .emailVerification, "new", 86400000, none⟩

/-- A user registers, asks for another e-mail and presents the token of that one. -/
def secondMail : List (Action auth AccountCall) :=
  .spawn 0 (.register ⟨"alice", consent⟩ "#password" ⟨1, "a"⟩ ⟨"1", "old"⟩) :: steps 0 8 ++
  .spawn 1 (.resendEmailVerification "alice" ⟨"2", "new"⟩) :: steps 1 7 ++
  .spawn 2 (.verifyEmail "new") :: steps 2 5

theorem newest_counts : ∃ w w', World.Leads (accountSystem accountServices) (accountStart 0) w ∧
    Accepts accountServices w w' "new" ∧ Superseded w.shared.history "old" ∧ OneActive w.shared.db ∧
    ¬ Accepts accountServices w w' "old" := by
  have hRun : ((accountRun secondMail).bind fun w =>
    (World.step (accountSystem accountServices) w (.run 2)).map fun w' =>
      (w.shared.history.map fun e => (e.before.authTokens.rows, e.after.authTokens.rows),
        (w.sessions 2).map Session.call,
        w'.returned 2)) = some ([([], []), ([], [old]), ([old], [old]),
          ([old], [old.consume 0, new])],
          some (.verifyEmail "new"), some (.emailVerification (.ok .verified))) := by decide
  obtain ⟨w, hW, hRun⟩ := Option.bind_eq_some_iff.mp hRun
  obtain ⟨w', hStep, hFacts⟩ := Option.map_eq_some_iff.mp hRun
  obtain ⟨hRows, hRest⟩ := Prod.mk.inj hFacts
  obtain ⟨hCall, hReturned⟩ := Prod.mk.inj hRest
  obtain ⟨session, hSession, hCall⟩ := Option.map_eq_some_iff.mp hCall
  have hLeads := World.leads_of_run hW
  obtain ⟨_, hActive, hOnce⟩ := tokens_used_once hLeads
  have hSuperseded : Superseded w.shared.history "old" := by
    obtain ⟨e₀, es₀, hSplit, _, hRows⟩ := List.map_eq_cons_iff.mp hRows
    obtain ⟨e, es₁, rfl, hIssued, hRows⟩ := List.map_eq_cons_iff.mp hRows
    obtain ⟨e₁, es₂, rfl, _, hRows⟩ := List.map_eq_cons_iff.mp hRows
    obtain ⟨e', es₃, rfl, hIssued', _⟩ := List.map_eq_cons_iff.mp hRows
    obtain ⟨hBefore, hAfter⟩ := Prod.mk.inj hIssued
    obtain ⟨hBefore', hAfter'⟩ := Prod.mk.inj hIssued'
    refine ⟨e, e', old, new, ?_, ⟨by rw [hAfter]; decide, ?_⟩, ⟨by rw [hAfter']; decide, ?_⟩,
      rfl, rfl, rfl⟩
    · rw [hSplit]
      exact .cons _ (.cons_cons _ (.cons _ (.cons_cons _ (List.nil_sublist _))))
    · exact Table.get_eq_none_iff.mpr (by rw [hBefore]; decide)
    · exact Table.get_eq_none_iff.mpr (by rw [hBefore']; decide)
  exact ⟨w, w', hLeads, ⟨.run 2, 2, _, _, hStep, rfl, ⟨session, .inl hSession, rfl⟩,
    by rw [hCall]; rfl, hReturned, rfl⟩,
    hSuperseded, hActive, fun hAccepts => (hOnce _ _ hAccepts).1 hSuperseded⟩

end Sample

end Pixaeron.Auth.OneTime
