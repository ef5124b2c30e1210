import Pixaeron.Auth.Runs

/-! # Refresh token rotation is linear

At every time each session has one unconsumed refresh token, whose hash it stores. A token is
exchanged at most once, and only for a live session; a refresh that does not succeed changes
nothing of that.
-/

namespace Pixaeron.Auth

open Transactions Transactions.Script

/-! ## The conduct of a refresh -/

def Session.rotationState (s : Session) :
    String × Option Nat × Option Nat × Option String × Option String :=
  (s.refreshTokenHash, s.lastUsedAt, s.rotatedAt, s.userAgent, s.ipHash)

/-- The tokens are the same, and the sessions as far as a rotation writes them. -/
structure SameRotation (db db' : Database) : Prop where
  tokens : db'.tokens = db.tokens
  sessions : ∀ id, (db'.sessions.get id).map Session.rotationState =
    (db.sessions.get id).map Session.rotationState

theorem SameRotation.refl (db : Database) : SameRotation db db := ⟨rfl, fun _ => rfl⟩

theorem sameRotation_revokeSessions {db : Database} {ids : List String} {revokedAt : Nat}
    {reason : SessionRevokedReason} :
    SameRotation db (db.revokeSessions ids revokedAt reason) := by
  refine ⟨rfl, fun id => ?_⟩
  have hSessions := Effect.get_session_apply (.revoke ids revokedAt reason) db id
  dsimp only at hSessions
  rw [show (db.revokeSessions ids revokedAt reason).sessions.get id = _ from hSessions,
    Option.map_map]
  refine congrArg (fun f => (db.sessions.get id).map f) (funext fun s => ?_)
  dsimp only [Function.comp_apply]
  split <;> rfl

def Succeeds (script : Script auth Outcome) : Prop :=
  ∃ signedIn, script = .done (.refreshed (.ok signedIn))

/-- Changes that leave the state of the rotation alone. -/
def CalmRefresh (change : Database → Database) : Prop := ∀ db, SameRotation db (change db)

/-- A commit after which the call succeeds, and which issues a token. -/
def LoudRefresh (change : Database → Database) (script : Script auth Outcome) : Prop :=
  Succeeds script ∧ ∀ db, ∃ id, (change db).issuedTokens = id :: db.issuedTokens

def Refused (_ : Option (Database → Database)) (outcome : Outcome) : Prop :=
  ∀ signedIn, outcome ≠ .refreshed (.ok signedIn)

variable {services : Services}

theorem calm_id : CalmRefresh id := SameRotation.refl

theorem assertRefreshAllowed_conducts {session : Session} {now : Nat} :
    (assertRefreshAllowed session now).Conducts CalmRefresh (fun _ _ => False)
      (fun tx _ => tx = none) none := by
  unfold assertRefreshAllowed
  split
  · rfl
  · split
    · refine fun v => ⟨fun db => sameRotation_revokeSessions, ?_⟩
      dsimp only [Script.bind_eq, Script.bind_done]
      split <;> rfl
    · rfl

theorem loadAndValidate_conducts {cookie : Option String} {now : Nat} :
    (loadAndValidateRefreshContext services cookie now).Conducts CalmRefresh (fun _ _ => False)
      (fun tx _ => tx = none) none := by
  unfold loadAndValidateRefreshContext
  split
  · rfl
  refine fun v₁ => ⟨calm_id, fun v₂ => ⟨calm_id, ?_⟩⟩
  simp only [Script.bind_eq, Script.bind_done]
  split
  · rfl
  refine Conducts.bind (assertRefreshAllowed_conducts.mono fun tx result hTx => ?_)
  subst hTx
  split
  · rfl
  · split
    · rfl
    · split <;> rfl

theorem handleConsumed_conducts {context : RefreshContext} {now : Nat} :
    (handleConsumedRefreshToken context now).Conducts CalmRefresh (fun _ _ => False)
      (fun tx _ => tx = none) none := by
  unfold handleConsumedRefreshToken
  split
  · rfl
  · split
    · rfl
    · exact fun v => ⟨fun db => sameRotation_revokeSessions, rfl⟩

theorem refreshSession_conducts {now : Nat} {cookie : Option String}
    {metadata : SessionRequestMetadata} {nextCredential : IssuedRefreshCredential} :
    (scriptOf services (.refreshSession now cookie metadata nextCredential)).Conducts CalmRefresh
      LoudRefresh Refused none := by
  change ((refreshSession services now cookie metadata nextCredential).bind fun result => .done
    (.refreshed result)).Conducts
    CalmRefresh LoudRefresh Refused none
  unfold refreshSession
  have hRefused {error : Failure} : Refused none (.refreshed (.error error)) :=
    fun _ h => by cases h
  rw [Script.bind_eq, Script.bind_assoc]
  refine Conducts.bind (loadAndValidate_conducts.mono fun tx result hTx => ?_)
  subst hTx
  split
  · exact hRefused
  rw [Script.bind_eq, Script.bind_assoc]
  refine Conducts.bind (handleConsumed_conducts.mono fun tx result hTx => ?_)
  subst hTx
  split
  · exact hRefused
  rw [Script.bind_eq, Script.bind_assoc]
  unfold rotateRefreshCredentialAtomically
  refine Conducts.transaction (fun error => by cases error <;> exact hRefused) fun v₁ => ?_
  refine conducts_require fun _ v₂ => ?_
  refine conducts_require fun _ v₃ => ?_
  refine conducts_require fun hAccepted =>
    ⟨_, rfl, .inr ⟨⟨_, rfl⟩, fun db => ⟨nextCredential.tokenId, ?_⟩⟩⟩
  dsimp only [Function.comp_apply]
  rw [if_neg (of_decide_eq_true hAccepted)]
  rfl

/-! ## One step of a refresh -/

variable {genesis : Genesis} {now₀ : Nat} {w w' : World auth Call Outcome} {sid : Nat}

/-- What one step of a refresh does: it exchanges the presented token, and then the call has
succeeded, or it leaves the rotation alone, and then the call has not succeeded. -/
inductive RefreshStep (w w' : World auth Call Outcome) (sid now : Nat)
    (cookie : Option String) : Prop
  | exchanged (e : LogEntry) (parsed : ParsedRefreshToken) (session : Running) :
    w'.shared.history = w.shared.history ++ [e] → e.before = w.shared.db → e.after = w'.shared.db →
    e.call = session.call → parseRefreshToken cookie = some parsed →
      Exchanges e parsed.sessionId parsed.tokenId now →
    w'.sessions sid = some session → Succeeds session.script → RefreshStep w w' sid now cookie
  | unchanged : SameRotation w.shared.db w'.shared.db →
    (∀ session, w'.sessions sid = some session → ¬ Succeeds session.script) →
      RefreshStep w w' sid now cookie

theorem not_succeeds {session : Running}
    (h : World.SessionConducts CalmRefresh LoudRefresh Refused session) :
    ¬ Succeeds session.script := by
  rintro ⟨signedIn, hDone⟩
  have hScript := h.script
  rw [hDone] at hScript
  exact hScript signedIn rfl

theorem exchanges_of_issues {e : LogEntry} {now : Nat} {cookie : Option String}
    {metadata : SessionRequestMetadata} {drawn : IssuedRefreshCredential}
    (hLegal : Legal services e) (hCall : e.call = .refreshSession now cookie metadata drawn)
    {id : String} (hIssues : e.after.issuedTokens = id :: e.before.issuedTokens) :
    ∃ parsed, parseRefreshToken cookie = some parsed ∧
      Exchanges e parsed.sessionId parsed.tokenId now := by
  obtain ⟨effect, hAllowed, hAfter⟩ := hLegal
  rw [hAfter, Effect.issuedTokens_apply] at hIssues
  cases effect with
  | start session token verified =>
    have hStarts := hAllowed.2.1
    rw [hCall] at hStarts
    exact hStarts.elim
  | rotate sessionId tokenId next now' metadata' =>
    obtain ⟨cookie', drawn', parsed, hCall', hParse, rfl, rfl, _⟩ := hAllowed.call
    cases hCall.symm.trans hCall'
    exact ⟨parsed, hParse, Rotates.exchanges hAllowed hAfter⟩
  | _ => simp at hIssues

def Call.Refreshes (call : Call) : Prop :=
  ∃ now cookie metadata drawn, call = .refreshSession now cookie metadata drawn

theorem conducts_of_spawn (call : Call) (s : Shared auth Call) (ext : Unit)
    (script : Script auth Outcome) (hCall : call.Refreshes)
    (hProgram : system services call s = some (ext, script)) :
    script.Conducts CalmRefresh LoudRefresh Refused none := by
  obtain ⟨now, cookie, metadata, drawn, rfl⟩ := hCall
  unfold system at hProgram
  split at hProgram <;> cases hProgram
  exact refreshSession_conducts

theorem ends_of_loud (change : Database → Database) (script : Script auth Outcome)
    (h : LoudRefresh change script) :
    ∃ outcome, script = .done outcome := by
  obtain ⟨signedIn, hDone⟩ := h.1
  exact ⟨_, hDone⟩

theorem refreshStep_of_did (hSystem : World.Leads (system services) (start now₀ genesis) w')
    {session : Running} {now : Nat} {cookie : Option String} {metadata : SessionRequestMetadata}
    {drawn : IssuedRefreshCredential} (hSession : w'.sessions sid = some session)
    (hCall : session.call = .refreshSession now cookie metadata drawn)
    (h : World.Did CalmRefresh LoudRefresh Refused w w' sid) : RefreshStep w w' sid now cookie := by
  cases h with
  | nothing found hDb hFound hConducts =>
    refine .unchanged (hDb ▸ .refl _) fun found' hFound' => ?_
    cases hFound.symm.trans hFound'
    exact not_succeeds hConducts
  | calm found change hCalm hDb hFound hConducts =>
    refine .unchanged (hDb ▸ hCalm _) fun found' hFound' => ?_
    cases hFound.symm.trans hFound'
    exact not_succeeds hConducts
  | loud found change e hLoud hShared hBefore hAfter hEntry hFound hTx =>
    cases hSession.symm.trans hFound
    obtain ⟨hSucceeds, hIssues⟩ := hLoud
    obtain ⟨id, hIssued⟩ := hIssues w.shared.db
    have hHistory : w'.shared.history = w.shared.history ++ [e] := by
      rw [hShared, Shared.record_history]
    have hMem : e ∈ w'.shared.history := by simp [hHistory]
    have hLegal : Legal services e := ((system_path hSystem).legal e hMem).1
    obtain ⟨parsed, hParse, hExchanges⟩ :=
      exchanges_of_issues hLegal (hEntry.trans hCall) (by rw [hAfter, hBefore]; exact hIssued)
    exact .exchanged e parsed session hHistory hBefore
      (by rw [hShared, Shared.record_db]) hEntry hParse hExchanges
      hSession hSucceeds

theorem refreshStep (h : World.Leads (system services) (start now₀ genesis) w)
    {action : Action auth Call} (hStep : World.step (system services) w action = some w')
    (hActor : World.Action.actor action = some sid) {session : Running}
    (hSession : w.sessions sid = some session ∨ w'.sessions sid = some session) {now : Nat}
    {cookie : Option String} {metadata : SessionRequestMetadata} {drawn : IssuedRefreshCredential}
    (hCall : session.call = .refreshSession now cookie metadata drawn) :
    RefreshStep w w' sid now cookie := by
  rcases World.did_of_step ends_of_loud conducts_of_spawn (fun _ => rfl) h hStep hActor hSession
    ⟨now, cookie, metadata, drawn, hCall⟩ with ⟨hDb, hGone⟩ | ⟨after, hAfter, hSame, hDid⟩
  · refine .unchanged (hDb ▸ .refl _) fun found hFound => ?_
    cases hGone.symm.trans hFound
  · exact refreshStep_of_did (h.tail ⟨action, hStep⟩) hAfter (hSame.trans hCall) hDid

/-! ## Linearity -/

theorem current_of_consistent {db : Database} (h : Consistent db) {s : Session}
    (hMem : s ∈ db.sessions.rows) :
    ∃ t, db.current s.id = [t] ∧ t.credentialHash = s.refreshTokenHash := by
  obtain ⟨t, hCurrent⟩ := h.current s.id s (Table.get_of_mem hMem)
  refine ⟨t, Table.select_eq_singleton (k := t.id) ?_ fun t' hMem' => ?_, hCurrent.credentialHash⟩
  · exact Table.mem_select.mpr ⟨Table.mem_of_get hCurrent.stored,
      decide_eq_true ⟨hCurrent.sessionId, hCurrent.unconsumed⟩⟩
  · obtain ⟨hStored, hBoth⟩ := Table.mem_select.mp hMem'
    obtain ⟨hId, hOpen⟩ := of_decide_eq_true hBoth
    rw [hCurrent.only t'.id t' (Table.get_of_mem hStored) hId hOpen]
    exact hCurrent.stored

structure SawLive (e : LogEntry) (sessionId tokenId : String) (now : Nat) : Prop where
  call : ∃ cookie metadata drawn parsed, e.call = .refreshSession now cookie metadata drawn ∧
    parseRefreshToken cookie = some parsed ∧ parsed.sessionId = sessionId ∧ parsed.tokenId = tokenId
  live : ∃ db s, e.saw .rotateSession = some db ∧ db.sessions.get sessionId = some s ∧
    s.revokedAt = none ∧ now < s.expiresAt

theorem Rotates.sawLive {e : LogEntry} {sessionId tokenId : String} {next : SessionRefreshToken}
    {now : Nat} {metadata : SessionRequestMetadata}
    (h : Rotates services e sessionId tokenId next now metadata) :
    SawLive e sessionId tokenId now := by
  constructor
  · obtain ⟨cookie, drawn, parsed, hCall, hParse, hSession, hToken, _⟩ := h.call
    exact ⟨cookie, metadata, drawn, parsed, hCall, hParse, hSession, hToken⟩
  · obtain ⟨s, _, _, _, _, _, _, hOpen, hLive, db, hSaw, hGet⟩ := h.rows
    exact ⟨db, s, hSaw, hGet, hOpen, hLive⟩

theorem exchanged_once (h : World.Leads (system services) (start now₀ genesis) w) :
    w.shared.history.Pairwise fun e e' => ∀ sessionId sessionId' tokenId now now',
      Exchanges e sessionId tokenId now → ¬ Exchanges e' sessionId' tokenId now' := by
  refine Path.pairwise (Q := fun e db => ∀ sessionId tokenId now,
    Exchanges e sessionId tokenId now → Spent db tokenId)
    (system_path h) (fun e hSane sessionId tokenId now hExchanges => hExchanges.spent hSane)
    fun e e' _ hSane' hSpent => ⟨fun sessionId tokenId now hExchanges => ?_, ?_⟩
  · exact (hSpent sessionId tokenId now hExchanges).later hSane'.1.later
  · intro sessionId sessionId' tokenId now now' hExchanges
    exact (hSpent sessionId tokenId now hExchanges).not_exchanged

/-- Whatever calls run at the same time. -/
theorem rotation_linear (services : Services) (genesis : Genesis) (now₀ : Nat)
    (w : World auth Call Outcome) (h : World.Leads (system services) (start now₀ genesis) w) :
    (∀ s ∈ w.shared.db.sessions.rows, ∃ t, w.shared.db.current s.id = [t] ∧
      t.credentialHash = s.refreshTokenHash) ∧
    (w.shared.history.Pairwise fun e e' => ∀ sessionId sessionId' tokenId now now',
      Exchanges e sessionId tokenId now → ¬ Exchanges e' sessionId' tokenId now') ∧
    (∀ e ∈ w.shared.history, ∀ sessionId tokenId now,
      Exchanges e sessionId tokenId now → SawLive e sessionId tokenId now) ∧
    ∀ action w' sid (session : Running) now cookie metadata drawn,
      World.step (system services) w action = some w' → World.Action.actor action = some sid →
      w.sessions sid = some session ∨ w'.sessions sid = some session →
      session.call = .refreshSession now cookie metadata drawn →
      RefreshStep w w' sid now cookie := by
  refine ⟨fun s hMem => current_of_consistent (system_consistent h) hMem, exchanged_once h, ?_, ?_⟩
  · intro e he sessionId tokenId now hExchanges
    obtain ⟨next, metadata, hRotates, _⟩ := hExchanges.rotates ((system_path h).legal e he).1
    exact hRotates.sawLive
  · intro action w' sid session now cookie metadata drawn hStep hActor hSession hCall
    exact refreshStep h hStep hActor hSession hCall

theorem rotation_linear_refreshed :
    ∃ w, World.Leads (system Sample.services) (start 0 Sample.genesis) w ∧
    (w.shared.db.current "s").map SessionRefreshToken.id = ["b"] ∧
    ∀ s ∈ w.shared.db.sessions.rows, ∃ t, w.shared.db.current s.id = [t] ∧
      t.credentialHash = s.refreshTokenHash := by
  have hRun : (Sample.run (Sample.signIn ++ Sample.refresh 1 0 "a" "b")).map
      (fun w => (w.shared.db.current "s").map SessionRefreshToken.id) = some ["b"] := by decide
  obtain ⟨w, hW, hCurrent⟩ := Option.map_eq_some_iff.mp hRun
  have hLeads := World.leads_of_run hW
  exact ⟨w, hLeads, hCurrent, (rotation_linear Sample.services Sample.genesis 0 w hLeads).1⟩

end Pixaeron.Auth
