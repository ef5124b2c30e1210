import Pixaeron.Transactions.FirstReads
import Pixaeron.Auth.SignIns

/-! # A password reset cuts off the old password

A sign-in compares the password outside any transaction, but checks the hash once more under the
lock of the user's row. So a session that was signed in with the old password is there when a
reset revokes sessions, or is not created at all.
-/

namespace Pixaeron.Auth

open Transactions Transactions.Script

section Reset

variable {services : Services} {genesis : Genesis} {now₀ : Nat}
  {w w' w₁ w₂ w₃ : World auth Call Outcome} {sid : Nat}
  {e : LogEntry} {userId : Nat} {old : Option String}

/-- The password of a user, `old` so far, is replaced by another one. -/
structure ReplacesPassword (e : LogEntry) (userId : Nat) (old : Option String) : Prop where
  before : ∃ u, e.before.users.get userId = some u ∧ u.password = old
  after : ∃ u, e.after.users.get userId = some u ∧ u.password ≠ old

theorem ReplacesPassword.hasReset (h : ReplacesPassword e userId old) (hLegal : Legal services e) :
    ∃ passwordHash, HasReset e userId passwordHash := by
  obtain ⟨effect, hAllowed, hAfter⟩ := hLegal
  obtain ⟨u, hUser, hOld⟩ := h.before
  obtain ⟨u', hUser', hNew⟩ := h.after
  rw [hAfter, Effect.get_user_apply] at hUser'
  cases effect with
  | reset authTokens userId' passwordHash ids now =>
    simp only [hUser, Option.map_some, Option.some.injEq] at hUser'
    subst hUser'
    split at hNew
    · next hSame =>
      subst hSame
      exact ⟨passwordHash, authTokens, ids, now, hAllowed, hAfter⟩
    · exact absurd hOld hNew
  | _ =>
    rw [Option.some.inj (hUser.symm.trans hUser')] at hOld
    exact absurd hOld hNew

theorem HasReset.replaces {passwordHash : String} (h : HasReset e userId passwordHash)
    (hSalted : ∀ u, e.before.users.get userId = some u → u.password ≠ some passwordHash) :
    ∃ old, ReplacesPassword e userId old := by
  obtain ⟨authTokens, ids, now, hResets, hAfter⟩ := h
  obtain ⟨u, hUser⟩ := hResets.user
  refine ⟨u.password, ⟨u, hUser, rfl⟩, u.setPassword passwordHash, ?_,
    fun hSame => hSalted u hUser hSame.symm⟩
  rw [hAfter, Effect.get_user_apply]
  simp only [hUser, Option.map_some, if_true]

theorem HasReset.head {passwordHash : String} (h : HasReset e userId passwordHash) :
    ∃ name db, e.reads.head? = some (name, db) := by
  obtain ⟨_, _, _, hResets, _⟩ := h
  obtain ⟨name, db, hHead, _⟩ := hResets.began
  exact ⟨name, db, hHead⟩

/-! ## Sessions of the old password -/

/-- The user has another password now, and no live session that was created under the old one. -/
structure CutOff (db : Database) (userId : Nat) (old : String) : Prop where
  user : ∃ u, db.users.get userId = some u ∧ u.password ≠ some old
  sessions : ∀ id s, db.sessions.get id = some s → s.userId = userId → s.revokedAt = none →
    (id, old) ∉ db.signIns

theorem HasReset.cutOff {passwordHash old : String} (h : HasReset e userId passwordHash)
    (hUser : ∃ u, e.after.users.get userId = some u ∧ u.password ≠ some old) :
    CutOff e.after userId old := by
  obtain ⟨authTokens, ids, now, hResets, hAfter⟩ := h
  refine ⟨hUser, fun id s hGet hOwner hOpen hMem => ?_⟩
  rw [hAfter, Effect.get_session_apply] at hGet
  rw [hAfter, Effect.signIns_apply] at hMem
  obtain ⟨row, hRow, hEq⟩ := Option.map_eq_some_iff.mp hGet
  split at hEq
  · rw [← hEq] at hOpen
    cases hOpen
  · next hApart =>
    subst hEq
    have hId : row.id = id := Table.key_of_get hRow
    rcases hResets.revoked row (Table.mem_of_get hRow) hOwner hOpen with hMine | hNone
    · exact hApart (hId ▸ hMine)
    · exact hNone old (hId ▸ hMem)

/-- Nobody signs in with the old password once it is replaced, unless it comes back. -/
theorem CutOff.step {old : String} (h : CutOff e.before userId old) (hSane : Sane services e)
    (hSalted : ∀ token, e.call ≠ .resetPassword token old) : CutOff e.after userId old := by
  have hLater := hSane.1.later
  obtain ⟨⟨effect, hAllowed, hAfter⟩, hCons⟩ := hSane
  obtain ⟨u, hUser, hNew⟩ := h.user
  constructor
  · rw [hAfter, Effect.get_user_apply]
    cases effect with
    | reset authTokens userId' passwordHash ids now =>
      obtain ⟨token, hCall⟩ := hAllowed.call
      simp only [hUser, Option.map_some]
      refine ⟨_, rfl, ?_⟩
      split
      · intro hSame
        cases hSame
        exact hSalted token hCall
      · exact hNew
    | _ => exact ⟨u, hUser, hNew⟩
  · intro id s' hGet hOwner hOpen hMem
    rw [hAfter] at hGet
    rcases effect.session_origin hAllowed hGet with ⟨token, verified, rfl, rfl, hNone⟩ |
      ⟨s, hOld, hStep⟩
    · rw [hAfter, Effect.signIns_apply] at hMem
      rcases List.mem_append.mp hMem with hHere | hBefore
      · obtain ⟨hash, hVerified, hEq⟩ := Option.map_eq_some_iff.mp (Option.mem_toList.mp hHere)
        cases hEq
        obtain ⟨_, _, _, _, _, _, _, _, hExpected⟩ := hAllowed
        obtain ⟨u', hUser', hPassword⟩ := hExpected old hVerified
        rw [hOwner, hUser, Option.some.injEq] at hUser'
        exact hNew (hUser' ▸ hPassword)
      · exact absurd (hCons.signIn _ _ hBefore) hAllowed.1
    · have hIssued := hCons.sessionIssued _ _ hOld
      exact h.sessions id s hOld (hStep.userId.symm.trans hOwner) (hStep.revoked hOpen)
        (hLater.signIns id hIssued old hMem)

/-! ## Sessions from before the transaction -/

theorem HasReset.dead {passwordHash : String} (h : HasReset e userId passwordHash) {db : Database}
    {name : Statement} (hHead : e.reads.head? = some (name, db)) (hBefore : Later db e.before)
    (hAfter : Later e.before e.after) {id : String} (hIssued : id ∈ db.issuedSessions)
    (hOwner : ∀ s, db.sessions.get id = some s → s.userId = userId) : Dead e.after id := by
  obtain ⟨authTokens, ids, now, hResets, hEq⟩ := h
  obtain ⟨name', db', hHead', hBegan⟩ := hResets.began
  cases hHead.symm.trans hHead'
  refine ⟨hAfter.issuedSessions _ (hBefore.issuedSessions _ hIssued), fun s'' hGet'' hOpen => ?_⟩
  obtain ⟨s', hGet', hStep'⟩ := hAfter.session id (hBefore.issuedSessions _ hIssued) s'' hGet''
  obtain ⟨s, hGet, _⟩ := hBefore.session id hIssued s' hGet'
  have hId : s.id = id := Table.key_of_get hGet
  have hMem : id ∈ ids := by
    rw [← hId]
    exact hBegan s (Table.mem_of_get hGet) (hOwner s hGet) s' (hId ▸ hGet') (hStep'.revoked hOpen)
  rw [hEq, Effect.get_session_apply] at hGet''
  simp only [hGet', Option.map_some, if_pos hMem, Option.some.injEq] at hGet''
  rw [← hGet''] at hOpen
  cases hOpen

/-! ## The conduct of a reset -/

def Call.ResetsPassword (call : Call) : Prop :=
  ∃ token passwordHash, call = .resetPassword token passwordHash

def DoesNothing (change : Database → Database) : Prop := ∀ db, change db = db

def EndsReset (_ : Database → Database) (script : Script auth Outcome) : Prop :=
  script = .done (.passwordReset (.ok .reset))

def NotReset (_ : Option (Database → Database)) (outcome : Outcome) : Prop :=
  outcome ≠ .passwordReset (.ok .reset)

theorem not_reset_of_error {error : Failure} : NotReset none (.passwordReset (.error error)) :=
  fun h => by cases h

theorem not_reset_of_rejection {authToken : Option AuthToken} {now : Nat}
    {rejection : PasswordResetStatus} (h : classifyResetToken authToken now = .error rejection) :
    NotReset none (.passwordReset (.ok rejection)) := by
  intro hReset
  cases hReset
  exact classify_ne_reset _ _ h

/-- A reset does nothing, except in the commit with which it returns that the password is reset. -/
theorem resetPassword_conducts {token passwordHash : String} :
    (scriptOf services (.resetPassword token passwordHash)).Conducts DoesNothing EndsReset
      NotReset none := by
  change ((resetPassword services token passwordHash).bind fun result => .done
    (.passwordReset result)).Conducts
    DoesNothing EndsReset NotReset none
  unfold resetPassword findAuthToken
  refine fun v₁ => ⟨fun _ => rfl, fun calledAt => ?_⟩
  simp only [Script.bind_done]
  split
  · next rejection hRejected => exact not_reset_of_rejection hRejected
  refine Conducts.transaction (fun error => not_reset_of_error) fun now v₂ => ?_
  simp only [Script.bind_done]
  split
  · next rejection hRejected =>
      exact ⟨_, rfl, .inl ⟨fun _ => rfl, not_reset_of_rejection hRejected⟩⟩
  next current hCurrent =>
  refine fun v₃ => ?_
  simp only [Script.bind_done]
  split
  · next hNot =>
    refine ⟨_, rfl, .inl ⟨fun db => ?_, fun h => by cases h⟩⟩
    have hNil : (v₃.db.authTokens.select fun t => t.id = current.id ∧ t.consumedAt = none ∧
      now < t.expiresAt) = [] :=
      select_nil_of_length_ne_one (fun t h => (of_decide_eq_true h).1) hNot
    dsimp only [Function.comp_apply, id]
    rw [hNil, List.map_nil, Database.consumeAuthTokens_nil]
  · exact fun v₄ => conducts_require fun _ v₅ => ⟨_, rfl, .inr rfl⟩

theorem ends_of_endsReset (change : Database → Database) (script : Script auth Outcome)
    (h : EndsReset change script) :
    ∃ outcome, script = .done outcome := ⟨_, h⟩

theorem conducts_of_spawn_reset (call : Call) (s : Shared auth Call) (ext : Unit)
    (script : Script auth Outcome) (hCall : call.ResetsPassword)
    (hProgram : system services call s = some (ext, script)) :
    script.Conducts DoesNothing EndsReset NotReset none := by
  obtain ⟨token, passwordHash, rfl⟩ := hCall
  unfold system at hProgram
  split at hProgram <;> cases hProgram
  exact resetPassword_conducts

/-- What one step of a reset does: it returns that the password is reset, or it leaves the rows
alone and does not return that. -/
inductive ResetStep (w w' : World auth Call Outcome) (sid : Nat) : Prop
  | reset : w'.returned sid = some (.passwordReset (.ok .reset)) → ResetStep w w' sid
  | unchanged : w'.shared.db = w.shared.db → w'.returned sid ≠ some (.passwordReset (.ok .reset)) →
      ResetStep w w' sid

theorem not_returned {session : Running} (hSession : w.sessions sid = some session)
    (h : World.SessionConducts DoesNothing EndsReset NotReset session) :
    w.returned sid ≠ some (.passwordReset (.ok .reset)) := by
  intro hReturned
  obtain ⟨found, hFound, hDone⟩ := World.returned_eq_some.mp hReturned
  cases hSession.symm.trans hFound
  have hScript := h.script
  rw [hDone] at hScript
  exact hScript rfl

theorem resetStep (h : World.Leads (system services) (start now₀ genesis) w)
    {action : Action auth Call} (hStep : World.step (system services) w action = some w')
    (hActor : World.Action.actor action = some sid) {session : Running}
    (hSession : w.sessions sid = some session ∨ w'.sessions sid = some session)
    (hCall : session.call.ResetsPassword) : ResetStep w w' sid := by
  rcases World.did_of_step ends_of_endsReset conducts_of_spawn_reset
    (fun _ => rfl) h hStep hActor hSession hCall with
    ⟨hDb, hGone⟩ | ⟨after, hAfter, _, hDid⟩
  · refine .unchanged hDb fun hReturned => ?_
    obtain ⟨found, hFound, _⟩ := World.returned_eq_some.mp hReturned
    cases hGone.symm.trans hFound
  · cases hDid with
    | nothing found hDb hFound hConducts => exact .unchanged hDb (not_returned hFound hConducts)
    | calm found change hCalm hDb hFound hConducts =>
      exact .unchanged (hDb.trans (hCalm _)) (not_returned hFound hConducts)
    | loud found change e hLoud hShared hBefore hEq hEntry hFound hTx =>
      exact .reset (World.returned_eq_some.mpr ⟨found, hFound, hLoud⟩)

/-! ## The whole -/

theorem cutOff_of_split {past later : List LogEntry} {old : String}
    (h : World.Leads (system services) (start now₀ genesis) w)
    (hSplit : w.shared.history = past ++ e :: later)
    (hReplaces : ReplacesPassword e userId (some old))
    (hSalted : ∀ e' ∈ later, ∀ token, e'.call ≠ .resetPassword token old) :
    CutOff w.shared.db userId old := by
  have hPath := system_path h
  rw [hSplit] at hPath
  obtain ⟨_, hSane, hLater⟩ := hPath.around
  refine hLater.preserves (P := fun (db : Database) _ => CutOff db userId old)
    (fun _ _ _ _ hSame => hSame)
    (fun e' he' hSane' hHere => hHere.step hSane' (hSalted e' he')) ?_
  obtain ⟨passwordHash, hReset⟩ := hReplaces.hasReset hSane.1
  exact hReset.cutOff hReplaces.after

theorem dead_of_reset {row : Session} (h : World.Leads (system services) (start now₀ genesis) w)
    (hRow : row ∈ w.shared.db.sessions.rows)
    (hOutside : ∀ session, w.sessions sid = some session → session.tx = none)
    (h₁ : World.Leads (system services) w w₁)
    (hStep : World.step (system services) w₁ (.run sid) = some w₂)
    (hRecords : w₂.shared.history = w₁.shared.history ++ [e])
    (hReplaces : ReplacesPassword e row.userId old) :
    Dead w₂.shared.db row.id := by
  have hLeads₁ := h.trans h₁
  have hNew : World.Leads (system services) w₁ w₂ := .single ⟨_, hStep⟩
  have hPath := path_since (system_reaches hLeads₁ hNew)
  rw [hRecords, List.drop_left] at hPath
  obtain ⟨hBefore, _, hSane, hEnd⟩ := hPath.of_cons
  obtain ⟨passwordHash, hReset⟩ := hReplaces.hasReset hSane.1
  obtain ⟨name, db, hHead⟩ := hReset.head
  obtain ⟨middle, hFrom, hTo, hDb⟩ := World.head_of_entry hOutside h₁ hStep hRecords hHead
  have hSince := rely_later (system_reaches h hFrom)
  have hIssued := (system_consistent h).sessionIssued _ _ (Table.get_of_mem hRow)
  rw [hEnd.of_nil]
  refine hReset.dead hHead ?_ hSane.1.later (hDb ▸ hSince.issuedSessions _ hIssued) fun s hGet => ?_
  · rw [hBefore, ← hDb]
    exact rely_later (system_reaches (h.trans hFrom) hTo)
  · rw [← hDb] at hGet
    obtain ⟨row', hGet', hRowStep⟩ := hSince.session _ hIssued s hGet
    cases (Table.get_of_mem hRow).symm.trans hGet'
    exact hRowStep.userId

theorem doneReset_of_returned {token passwordHash : String}
    (h : World.Leads (system services) (start now₀ genesis) w)
    (hSpawn : World.step (system services) w (.spawn sid (.resetPassword token passwordHash)) =
      some w₁) (hStays : World.Stays (system services) sid w₁ w₂)
    (hReturned : w₂.returned sid = some (.passwordReset (.ok .reset))) :
    DoneReset w.shared token passwordHash w₂.shared := by
  have hWp (ext : Unit) (script : Script auth Outcome)
      (hProgram : system services (.resetPassword token passwordHash) w.shared = some (ext, script))
      (hSound : (ledger services genesis).Sound (w.shared.setExt ext)) :
      Wp (discipline services genesis) (.resetPassword token passwordHash) script
        (fun outcome _ s => outcome = .passwordReset (.ok .reset) →
          DoneReset w.shared token passwordHash s)
        (.outside []) (w.shared.setExt ext) := by
    unfold system at hProgram
    split at hProgram <;> cases hProgram
    refine wp_outcome (Q := fun result _ s => result = .ok .reset →
      DoneReset w.shared token passwordHash s) hSound
      (wp_resetPassword rfl _) fun result l s s' hRely _ hDone hOutcome => ?_
    exact (hDone (by cases hOutcome; rfl)).later hRely
  obtain ⟨_, hDone⟩ :=
    (system_meets h).returned verified_system hSpawn hWp hStays (fun _ _ => trivial) hReturned
  exact hDone rfl

end Reset

/-- Whatever calls run at the same time: the old password is cut off, as long as no later reset
draws its hash again; the sessions from before the transaction are; and a reset that does not say
so has done nothing. -/
theorem reset_cuts_off (services : Services) (genesis : Genesis) (now₀ : Nat)
    (w : World auth Call Outcome) (h : World.Leads (system services) (start now₀ genesis) w) :
    (∀ past e later userId old, w.shared.history = past ++ e :: later →
      ReplacesPassword e userId (some old) →
      (∀ e' ∈ later, ∀ token, e'.call ≠ .resetPassword token old) →
      ∀ s ∈ w.shared.db.sessions.rows, s.userId = userId → s.revokedAt = none →
        ¬ SignedInWith services genesis now₀ w s.id old) ∧
    (∀ s ∈ w.shared.db.sessions.rows, ∀ sid w₁ w₂ w₃ e old,
      (∀ session : Running, w.sessions sid = some session → session.tx = none) →
      World.Leads (system services) w w₁ →
      World.step (system services) w₁ (.run sid) = some w₂ →
      w₂.shared.history = w₁.shared.history ++ [e] →
      ReplacesPassword e s.userId old → World.Leads (system services) w₂ w₃ →
      ∀ e' ∈ w₃.shared.history.drop w₂.shared.history.length, ∀ tokenId now,
        ¬ Exchanges e' s.id tokenId now) ∧
    (∀ action w' sid (session : Running), World.step (system services) w action = some w' →
      World.Action.actor action = some sid →
      w.sessions sid = some session ∨ w'.sessions sid = some session →
      session.call.ResetsPassword → ResetStep w w' sid) ∧
    ∀ sid token passwordHash w₁ w₂,
      World.step (system services) w (.spawn sid (.resetPassword token passwordHash)) = some w₁ →
      World.Stays (system services) sid w₁ w₂ →
      w₂.returned sid = some (.passwordReset (.ok .reset)) →
      ∃ e ∈ w₂.shared.history.drop w.shared.history.length,
        e.call = .resetPassword token passwordHash ∧
        ∃ userId, (∀ u, e.before.users.get userId = some u → u.password ≠ some passwordHash) →
          ∃ old, ReplacesPassword e userId old := by
  refine ⟨?_, ?_, ?_, ?_⟩
  · intro past e later userId old hSplit hReplaces hSalted s hs hOwner hOpen hSignedIn
    have hCutOff := cutOff_of_split h hSplit hReplaces hSalted
    exact hCutOff.sessions s.id s (Table.get_of_mem hs) hOwner hOpen hSignedIn.recorded
  · intro s hs sid w₁ w₂ w₃ e old hOutside h₁ hStep hRecords hReplaces h₃
    have hDead := dead_of_reset h hs hOutside h₁ hStep hRecords hReplaces
    exact not_exchanged_of_dead ((h.trans h₁).tail ⟨_, hStep⟩) hDead h₃
  · intro action w' sid session hStep hActor hSession hCall
    exact resetStep h hStep hActor hSession hCall
  · intro sid token passwordHash w₁ w₂ hSpawn hStays hReturned
    obtain ⟨e, hMem, hCall, userId, hReset⟩ := doneReset_of_returned h hSpawn hStays hReturned
    exact ⟨e, hMem, hCall, userId, hReset.replaces⟩

namespace Sample

/-- Alice resets her password and signs in with the new one. -/
def changePassword : List (Action auth Call) :=
  .spawn 1 (.resetPassword "reset" "#new") :: runs 1 9 ++
    .spawn 2 (.login "alice" "new" browser ⟨"t", credential "b"⟩ false) :: runs 2 8

/-- The session is put in by the last step of its sign-in, whose first one read Alice's hash. -/
theorem signedInWith_password {w : World auth Call Outcome}
    (h : run (signIn ++ changePassword) = some w) :
    SignedInWith services genesis 0 w "s" "#password" := by
  let call : Call := .login "alice" "password" browser ⟨"s", credential "a"⟩ false
  have hParts : signIn ++ changePassword =
    [.spawn 0 call] ++ ([.run 0] ++ (runs 0 6 ++ ([.run 0] ++ changePassword))) := rfl
  have hBefore : (run ([.spawn 0 call] ++ ([.run 0] ++ runs 0 6))).map
    (fun w => w.shared.db.sessions.get "s") = some none := by decide
  have hAfter : (run signIn).map (fun w => (w.shared.db.sessions.get "s").isSome) = some true := by
    decide
  rw [hParts] at h
  simp only [run, World.run_append, World.run_singleton, Option.bind_eq_some_iff] at h
  obtain ⟨w₁, hSpawn, w₂, hRead, w₃, hGoesOn, w₄, hCommit, hLater⟩ := h
  obtain ⟨_, hDb, ext, script, hProgram, hSession⟩ := World.step_spawn hSpawn
  have hAlive : ∀ action ∈ runs 0 6, action ≠ .kill 0 := fun action hMem => by
    rw [List.eq_of_mem_replicate hMem]
    exact fun hNo => by cases hNo
  refine ⟨0, w₁, w₂, w₃, w₄, .single ⟨_, hSpawn⟩, ?_, hRead, World.stays_of_run hGoesOn hAlive,
    ⟨hCommit, ?_, ?_⟩,
    World.leads_of_run hLater⟩
  · refine ⟨"alice", "password", browser, ⟨"s", credential "a"⟩, false, alice, ?_, ?_,
      rfl, by decide⟩
    · cases hProgram
      exact hSession
    · rw [hDb]
      rfl
  · simp only [run, World.run_append, World.run_singleton, hSpawn, hRead, hGoesOn, Option.bind_some,
      Option.map_some, Option.some.injEq] at hBefore
    exact hBefore
  · have hSignIn : signIn = [.spawn 0 call] ++ ([.run 0] ++ (runs 0 6 ++ [.run 0])) := rfl
    rw [hSignIn] at hAfter
    simp only [run, World.run_append, World.run_singleton, hSpawn, hRead, hGoesOn, hCommit,
      Option.bind_some, Option.map_some, Option.some.injEq] at hAfter
    exact Option.isSome_iff_ne_none.mp hAfter

theorem reset_cuts_off_alice : ∃ w, World.Leads (system services) (start 0 genesis) w ∧
    SignedInWith services genesis 0 w "s" "#password" ∧
    ∃ s ∈ w.shared.db.sessions.rows, s.userId = 1 ∧ s.revokedAt = none ∧
      ¬ SignedInWith services genesis 0 w s.id "#password" := by
  let later : Call := .login "alice" "new" browser ⟨"t", credential "b"⟩ false
  have hRun : (run (signIn ++ changePassword)).map (fun w => w.shared.history[3]?.map fun e =>
      ((e.before.users.get 1).map User.password, (e.after.users.get 1).map User.password)) =
      some (some (some (some "#password"), some (some "#new"))) := by decide
  have hCalls : (run (signIn ++ changePassword)).map
    (fun w => (w.shared.history.drop 4).map Entry.call) =
      some [later, later] := by decide
  have hRow : ((run (signIn ++ changePassword)).bind fun w => w.shared.db.sessions.get "t").map
      (fun s => (s.userId, s.revokedAt)) = some (1, none) := by decide
  obtain ⟨w, hW, hReset⟩ := Option.map_eq_some_iff.mp hRun
  simp only [hW, Option.map_some, Option.some.injEq, Option.bind_some] at hCalls hRow
  obtain ⟨e, hEntry, hPasswords⟩ := Option.map_eq_some_iff.mp hReset
  obtain ⟨hBefore, hAfter⟩ := Prod.mk.inj hPasswords
  obtain ⟨u, hUser, hOld⟩ := Option.map_eq_some_iff.mp hBefore
  obtain ⟨u', hUser', hNew⟩ := Option.map_eq_some_iff.mp hAfter
  obtain ⟨s, hGet, hRow⟩ := Option.map_eq_some_iff.mp hRow
  obtain ⟨hOwner, hOpen⟩ := Prod.mk.inj hRow
  obtain ⟨hShort, hEntry⟩ := List.getElem?_eq_some_iff.mp hEntry
  have hSplit : w.shared.history = w.shared.history.take 3 ++ e :: w.shared.history.drop 4 := by
    rw [← hEntry, ← List.drop_eq_getElem_cons hShort, List.take_append_drop]
  have hReplaces : ReplacesPassword e 1 (some "#password") :=
    ⟨⟨u, hUser, hOld⟩, u', hUser', by rw [hNew]; decide⟩
  have hLeads := World.leads_of_run hW
  refine ⟨w, hLeads, signedInWith_password hW, s, Table.mem_of_get hGet, hOwner, hOpen, ?_⟩
  refine (reset_cuts_off services genesis 0 w hLeads).1 _ e _ 1 "#password" hSplit hReplaces
    (fun e' he' token hNo => ?_) s
    (Table.mem_of_get hGet) hOwner hOpen
  have hCall : e'.call ∈ [later, later] := hCalls ▸ List.mem_map_of_mem he'
  simp [hNo, later] at hCall

end Sample

end Pixaeron.Auth
