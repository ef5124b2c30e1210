import Pixaeron.Auth.Runs

/-! # Logout against a concurrent refresh

A logout that finds the session as its caller left it ends the session for good. If a refresh has
replaced the credential before the logout reads the session, the logout reports success and does
nothing.
-/

namespace Pixaeron.Auth

open Transactions

section Following

variable {services : Services} {genesis : Genesis} {now₀ : Nat}
  {w w₁ w₂ w₃ : World auth Call Outcome} {sid : Nat}

theorem loggedOut_of_returned {cookie : Option String}
    (h : World.Leads (system services) (start now₀ genesis) w)
    (hSpawn : World.step (system services) w (.spawn sid (.logout cookie)) = some w₁)
    (hStays : World.Stays (system services) sid w₁ w₂)
    (hReturned : w₂.returned sid = some (.loggedOut (.ok true))) :
    LoggedOut services w.shared cookie w₂.shared := by
  have hWp (ext : Unit) (script : Script auth Outcome)
      (hProgram : system services (.logout cookie) w.shared = some (ext, script))
      (hSound : (ledger services genesis).Sound (w.shared.setExt ext)) :
      Wp (discipline services genesis) (.logout cookie) script (fun outcome _ s =>
        outcome = .loggedOut (.ok true) →
        LoggedOut services w.shared cookie s) (.outside []) (w.shared.setExt ext) := by
    unfold system at hProgram
    split at hProgram <;> cases hProgram
    refine wp_outcome (Q := fun result _ s => result = .ok true →
      LoggedOut services w.shared cookie s) hSound
      (wp_logout rfl _) fun result l s s' hRely _ hDone hOutcome => ?_
    exact (hDone (by cases hOutcome; rfl)).later hRely
  obtain ⟨_, hLoggedOut⟩ :=
    (system_meets h).returned verified_system hSpawn hWp hStays (fun _ _ => trivial) hReturned
  exact hLoggedOut rfl

/-- If the logout has not read a session whose stored credential is another one by now. -/
theorem logout_wins (services : Services) (genesis : Genesis) (now₀ : Nat)
    (w w₁ w₂ w₃ : World auth Call Outcome) (sid : Nat) (cookie : Option String)
    (parsed : ParsedRefreshToken) (session : Session)
    (h : World.Leads (system services) (start now₀ genesis) w)
    (hSpawn : World.step (system services) w (.spawn sid (.logout cookie)) = some w₁)
    (hParse : parseRefreshToken cookie = some parsed)
    (hSession : w.shared.db.sessions.get parsed.sessionId = some session)
    (hStays : World.Stays (system services) sid w₁ w₂)
    (hReturned : w₂.returned sid = some (.loggedOut (.ok true)))
    (hUnchanged : ∀ read ∈ w₂.shared.history.drop w.shared.history.length,
      ¬ ReadsStale services cookie read) (hLater : World.Leads (system services) w₂ w₃) :
    ∀ e ∈ w₃.shared.history.drop w₂.shared.history.length, ∀ tokenId now,
      ¬ Exchanges e parsed.sessionId tokenId now := by
  have hIssued := (system_consistent h).sessionIssued _ _ hSession
  have hLeads : World.Leads (system services) (start now₀ genesis) w₂ :=
    (h.tail ⟨_, hSpawn⟩).trans hStays.leads
  rcases loggedOut_of_returned h hSpawn hStays hReturned parsed hParse hIssued with hDead |
    ⟨read, hMem, hStale⟩
  · exact not_exchanged_of_dead hLeads hDead hLater
  · exact absurd hStale (hUnchanged read hMem)

end Following

namespace Sample

/-- A refresh has read Alice's session when her logout starts, and exchanges the token between the
two steps of the logout. -/
def exchangedMeanwhile : List (Action auth Call) := runs 2 1 ++ runs 1 5 ++ runs 2 2

theorem logout_wins_exchanged : ∃ w w₂, World.Leads (system services) (start 0 genesis) w ∧
    World.Leads (system services) w w₂ ∧ w₂.returned 2 = some (.loggedOut (.ok true)) ∧
    (∃ e ∈ w₂.shared.history.drop w.shared.history.length, Exchanges e "s" "a" 0) ∧
    ∀ w₃, World.Leads (system services) w₂ w₃ →
      ∀ e ∈ w₃.shared.history.drop w₂.shared.history.length, ∀ tokenId now,
        ¬ Exchanges e "s" tokenId now := by
  have hRun : ((run (signIn ++ (refresh 1 0 "a" "b").take 3)).bind fun w =>
      (World.step (system services) w (.spawn 2 (.logout (cookie "a")))).bind fun w₁ =>
      (World.run (system services) w₁ exchangedMeanwhile).map fun w₂ =>
        ((w.shared.db.sessions.get "s").isSome, w₂.returned 2,
          decide (∃ e ∈ w₂.shared.history.drop w.shared.history.length, Exchanges e "s" "a" 0),
          (w₂.shared.history.drop w.shared.history.length).all fun read =>
            (read.saw .findSession).isNone ||
            (read.before.sessions.get "s").all fun row =>
              services.verifyRefreshCredential "a.x" row.refreshTokenHash)) =
      some (true, some (.loggedOut (.ok true)), true, true) := by decide
  obtain ⟨w, hW, hRun⟩ := Option.bind_eq_some_iff.mp hRun
  obtain ⟨w₁, hSpawn, hRun⟩ := Option.bind_eq_some_iff.mp hRun
  obtain ⟨w₂, hMeanwhile, hFacts⟩ := Option.map_eq_some_iff.mp hRun
  simp only [Prod.mk.injEq, decide_eq_true_eq, List.all_eq_true, Bool.or_eq_true] at hFacts
  obtain ⟨hThere, hReturned, hExchanged, hSame⟩ := hFacts
  obtain ⟨session, hSession⟩ := Option.isSome_iff_exists.mp hThere
  have hParse : parseRefreshToken (cookie "a") = some ⟨"s", "a", "a.x"⟩ := by decide
  refine ⟨w, w₂, World.leads_of_run hW, .head ⟨_, hSpawn⟩ (World.leads_of_run hMeanwhile),
    hReturned, hExchanged, fun w₃ hLater => ?_⟩
  refine logout_wins services genesis 0 w w₁ w₂ w₃ 2 (cookie "a") ⟨"s", "a", "a.x"⟩ session
    (World.leads_of_run hW)
    hSpawn hParse hSession (World.stays_of_run hMeanwhile ?_) hReturned
      (fun read hMem hStale => ?_) hLater
  · simp [exchangedMeanwhile, runs]
  · obtain ⟨_, hSaw, parsed, row, hParse', hRow, _, hDiffers⟩ := hStale
    cases hParse.symm.trans hParse'
    rcases hSame read hMem with hNone | hVerified
    · rw [hSaw] at hNone
      cases hNone
    · rw [hRow, Option.all_some, hDiffers] at hVerified
      cases hVerified

/-! ## A refresh in between -/

/-- Alice's session is refreshed with the token that it has when a logout starts. -/
def overtaken : List (Action auth Call) := runs 1 7 ++ runs 2 1

theorem logout_overtaken : ∃ w w₁ w₂ w₃, World.Leads (system services) (start 0 genesis) w ∧
    (w.shared.db.sessions.get "s").map (fun s => (s.refreshTokenHash, s.revokedAt)) =
      some ("#a.x", none) ∧
    World.step (system services) w (.spawn 2 (.logout (cookie "a"))) = some w₁ ∧
    World.Stays (system services) 2 w₁ w₂ ∧ w₂.returned 2 = some (.loggedOut (.ok true)) ∧
    World.Leads (system services) w₂ w₃ ∧
    ∃ e ∈ w₃.shared.history.drop w₂.shared.history.length, Exchanges e "s" "b" 0 := by
  have hRun : ((run (signIn ++ (refresh 1 0 "a" "b").take 1)).bind fun w =>
      (World.step (system services) w (.spawn 2 (.logout (cookie "a")))).bind fun w₁ =>
      (World.run (system services) w₁ overtaken).bind fun w₂ =>
      (World.run (system services) w₂ (refresh 3 0 "b" "c")).map fun w₃ =>
        ((w.shared.db.sessions.get "s").map (fun s => (s.refreshTokenHash, s.revokedAt)),
          w₂.returned 2,
          decide (∃ e ∈ w₃.shared.history.drop w₂.shared.history.length, Exchanges e "s" "b" 0))) =
      some (some ("#a.x", none), some (.loggedOut (.ok true)), true) := by decide
  obtain ⟨w, hW, hRun⟩ := Option.bind_eq_some_iff.mp hRun
  obtain ⟨w₁, hSpawn, hRun⟩ := Option.bind_eq_some_iff.mp hRun
  obtain ⟨w₂, hOvertaken, hRun⟩ := Option.bind_eq_some_iff.mp hRun
  obtain ⟨w₃, hLater, hFacts⟩ := Option.map_eq_some_iff.mp hRun
  simp only [Prod.mk.injEq, decide_eq_true_eq] at hFacts
  obtain ⟨hCurrent, hReturned, hExchanged⟩ := hFacts
  refine ⟨w, w₁, w₂, w₃, World.leads_of_run hW, hCurrent, hSpawn,
    World.stays_of_run hOvertaken ?_, hReturned,
    World.leads_of_run hLater, hExchanged⟩
  simp [overtaken, runs]

end Sample

end Pixaeron.Auth
