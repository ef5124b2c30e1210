import Pixaeron.Auth.Runs

/-! # Revocation records

Most revocations leave a revoked session alone. A logout and the marking of an expired session
update the session by its identifier, after an earlier read, and so overwrite the record of a
revocation that came in between.
-/

namespace Pixaeron.Auth

open Transactions

def Call.cookie : Call → Option String
  | .refreshSession _ cookie _ _ | .logout cookie => cookie
  | _ => none

/-- An update by identifier finds its session revoked already. -/
structure FindsRevoked (e : LogEntry) : Prop where
  update : ∃ name, (name = .markExpired ∨ name = .revokeLoggedOut) ∧ e.saw name = some e.before
  revoked : ∃ parsed s, parseRefreshToken e.call.cookie = some parsed ∧
    e.before.sessions.get parsed.sessionId = some s ∧ s.revokedAt ≠ none

def Session.revocation (s : Session) : Option Nat × Option SessionRevokedReason :=
  (s.revokedAt, s.revokedReason)

section Kept

variable {services : Services} {e : LogEntry} {ids : List String} {revokedAt : Nat}
  {reason : SessionRevokedReason}

/-- A revocation spares the revoked sessions, unless it is an update by identifier. -/
theorem Revokes.spares (h : Revokes e ids revokedAt reason) (hUpdate : ¬ FindsRevoked e)
    {s : Session} (hGet : e.before.sessions.get s.id = some s)
    (hRevoked : s.revokedAt ≠ none) : s.id ∉ ids := by
  intro hMem
  have hFinds (parsed : ParsedRefreshToken) (hName : reason = .expired ∨ reason = .logout)
      (hParse : parseRefreshToken e.call.cookie = some parsed)
        (hId : s.id = parsed.sessionId) : FindsRevoked e :=
    ⟨h.update hName, parsed, s, hParse, hId ▸ hGet, hRevoked⟩
  by_cases hLogout : reason = .logout
  · obtain ⟨cookie, parsed, hCall, hParse, rfl⟩ := h.logout hLogout
    refine hUpdate (hFinds parsed (.inr hLogout) ?_ (List.mem_singleton.mp hMem))
    rw [hCall]
    exact hParse
  by_cases hExpired : reason = .expired
  · obtain ⟨cookie, metadata, drawn, parsed, hCall, hParse, hIds⟩ := h.refresh (.inl hExpired)
    refine hUpdate (hFinds parsed (.inl hExpired) ?_ (hIds _ hMem))
    rw [hCall]
    exact hParse
  · exact hRevoked (h.unrevoked hLogout hExpired _ hMem s hGet)

theorem Legal.keeps_revocation (hLegal : Legal services e) (hUpdate : ¬ FindsRevoked e)
    {s s' : Session} (hGet : e.before.sessions.get s.id = some s) (hRevoked : s.revokedAt ≠ none)
    (hGet' : e.after.sessions.get s.id = some s') : s'.revocation = s.revocation := by
  obtain ⟨effect, hAllowed, hAfter⟩ := hLegal
  rw [hAfter, Effect.get_session_apply] at hGet'
  cases effect with
  | start session token verified =>
    simp only [hGet, Option.some_or, Option.some.injEq] at hGet'
    rw [hGet']
  | rotate sessionId tokenId next now metadata =>
    simp only [hGet, Option.map_some, Option.some.injEq] at hGet'
    subst hGet'
    split <;> rfl
  | revoke ids revokedAt reason =>
    simp only [hGet, Option.map_some, if_neg (hAllowed.spares hUpdate hGet hRevoked),
      Option.some.injEq] at hGet'
    rw [hGet']
  | reset authTokens userId passwordHash ids now =>
    have hApart : s.id ∉ ids := fun hMem => hRevoked (hAllowed.unrevoked _ hMem s hGet).1
    simp only [hGet, Option.map_some, if_neg hApart, Option.some.injEq] at hGet'
    rw [hGet']
  | dropSessions ids =>
    rw [Option.some.inj ((Option.filter_eq_some_iff.mp hGet').1.symm.trans hGet)]
  | _ => rw [Option.some.inj (hGet'.symm.trans hGet)]

end Kept

/-- As long as no update by identifier finds its session revoked already. -/
theorem revocations_kept (services : Services) (genesis : Genesis) (now₀ : Nat)
    (w w' : World auth Call Outcome) (h : World.Leads (system services) (start now₀ genesis) w)
    (h' : World.Leads (system services) w w')
    (hUpdates : ∀ e ∈ w'.shared.history.drop w.shared.history.length, ¬ FindsRevoked e) :
    ∀ s ∈ w.shared.db.sessions.rows, s.revokedAt ≠ none → ∀ s' ∈ w'.shared.db.sessions.rows,
      s'.id = s.id →
      s'.revocation = s.revocation := by
  intro s hs hRevoked s' hs' hId
  have hGet := Table.get_of_mem hs
  have hKept : s.id ∈ w'.shared.db.issuedSessions ∧
      ∀ s', w'.shared.db.sessions.get s.id = some s' → s'.revocation = s.revocation := by
    refine (path_since (system_reaches h h')).preserves (P := fun (db : Database) _ =>
      s.id ∈ db.issuedSessions ∧
      ∀ s', db.sessions.get s.id = some s' → s'.revocation = s.revocation)
        (fun _ _ _ _ hSame => hSame)
      (fun e he hSane hHere => ⟨hSane.1.later.issuedSessions _ hHere.1, fun s₂ hGet₂ => ?_⟩)
      ⟨(system_consistent h).sessionIssued _ _ hGet,
        fun s' hGet' => by rw [Option.some.inj (hGet'.symm.trans hGet)]⟩
    obtain ⟨s₁, hGet₁, _⟩ := hSane.1.later.session _ hHere.1 s₂ hGet₂
    have hSame := hHere.2 s₁ hGet₁
    have hId₁ : s₁.id = s.id := Table.key_of_get hGet₁
    rw [← hId₁] at hGet₁ hGet₂
    have hRevoked₁ : s₁.revokedAt ≠ none := by
      rw [show s₁.revokedAt = s.revokedAt from congrArg Prod.fst hSame]
      exact hRevoked
    exact (hSane.1.keeps_revocation (hUpdates e he) hGet₁ hRevoked₁ hGet₂).trans hSame
  exact hKept.2 s' (hId ▸ Table.get_of_mem hs')

namespace Sample

theorem revocations_kept_twice : ∃ w w', World.Leads (system services) (start 0 genesis) w ∧
    World.Leads (system services) w w' ∧
    (w.shared.db.sessions.get "s").map Session.revocation = some (some 0, some .logoutAll) ∧
    ∀ s ∈ w.shared.db.sessions.rows, s.revokedAt ≠ none → ∀ s' ∈ w'.shared.db.sessions.rows,
      s'.id = s.id →
      s'.revocation = s.revocation := by
  have hRun : ((run (signIn ++ .spawn 1 (.logoutAll 1) :: runs 1 2)).bind fun w =>
      (World.run (system services) w (.spawn 2 (.logoutAll 1) :: runs 2 2)).map fun w' =>
        ((w.shared.db.sessions.get "s").map Session.revocation,
          (w'.shared.history.drop w.shared.history.length).all fun e =>
            (e.saw .markExpired).isNone && (e.saw .revokeLoggedOut).isNone)) =
      some (some (some 0, some .logoutAll), true) := by decide
  obtain ⟨w, hW, hRun⟩ := Option.bind_eq_some_iff.mp hRun
  obtain ⟨w', hW', hFacts⟩ := Option.map_eq_some_iff.mp hRun
  simp only [Prod.mk.injEq, List.all_eq_true, Bool.and_eq_true, Option.isNone_iff_eq_none] at hFacts
  obtain ⟨hRecord, hNoUpdate⟩ := hFacts
  have hLeads := World.leads_of_run hW
  have hLeads' := World.leads_of_run hW'
  refine ⟨w, w', hLeads, hLeads', hRecord,
    revocations_kept services genesis 0 w w' hLeads hLeads' fun e he hFinds => ?_⟩
  obtain ⟨name, rfl | rfl, hSaw⟩ := hFinds.update
  · cases (hNoUpdate e he).1.symm.trans hSaw
  · cases (hNoUpdate e he).2.symm.trans hSaw

/-- A logout has read the session when the reuse of a refresh token is detected. -/
def overwriting : List (Action auth Call) :=
  .spawn 2 (.logout (cookie "b")) :: runs 2 2 ++ .spawn 3
    (.refreshSession 4000 (cookie "a") browser (credential "c")) :: runs 3 3

theorem revocation_overwritten : ∃ w w', World.Leads (system services) (start 0 genesis) w ∧
    World.Leads (system services) w w' ∧
    (w.shared.db.sessions.get "s").map Session.revocation = some (some 4000, some .refreshReuse) ∧
    (w'.shared.db.sessions.get "s").map Session.revocation = some (some 4000, some .logout) := by
  have hRun : ((run (signIn ++ refresh 1 0 "a" "b" ++ .tick 4000 :: overwriting)).bind fun w =>
      (World.run (system services) w (runs 2 1)).map fun w' =>
        ((w.shared.db.sessions.get "s").map Session.revocation,
          (w'.shared.db.sessions.get "s").map Session.revocation)) =
      some (some (some 4000, some .refreshReuse), some (some 4000, some .logout)) := by decide
  obtain ⟨w, hW, hRun⟩ := Option.bind_eq_some_iff.mp hRun
  obtain ⟨w', hW', hFacts⟩ := Option.map_eq_some_iff.mp hRun
  obtain ⟨hReuse, hLogout⟩ := Prod.mk.inj hFacts
  exact ⟨w, w', World.leads_of_run hW, World.leads_of_run hW', hReuse, hLogout⟩

end Sample

end Pixaeron.Auth
