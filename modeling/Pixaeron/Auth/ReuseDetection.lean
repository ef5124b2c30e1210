import Mathlib.Data.List.Induction
import Pixaeron.Auth.Runs

/-! # Reuse of refresh tokens

Which refresh tokens have been exchanged, and when, is read off the history: the rows tell the
same. A refresh with a token that somebody has long exchanged kills the session; refreshes that
race with one token do not.
-/

namespace Pixaeron.Auth

open Transactions

def LastExchange (history : List LogEntry) (sessionId tokenId : String) (now : Nat) : Prop :=
  ∃ past e later, history = past ++ e :: later ∧ Exchanges e sessionId tokenId now ∧
    ∀ e' ∈ later, ∀ tokenId' now', ¬ Exchanges e' sessionId tokenId' now'

def Presents (call : Call) (sessionId tokenId : String) (now : Nat) : Prop :=
  ∃ cookie metadata drawn parsed, call = .refreshSession now cookie metadata drawn ∧
    parseRefreshToken cookie = some parsed ∧ parsed.sessionId = sessionId ∧ parsed.tokenId = tokenId

section Chronicle

variable {services : Services} {history : List LogEntry} {db : Database} {e : LogEntry}
  {sessionId tokenId : String} {now : Nat}

theorem exists_last {α : Type} {p : α → Prop} {l : List α} (h : ∃ a ∈ l, p a) :
    ∃ past a later, l = past ++ a :: later ∧ p a ∧ ∀ b ∈ later, ¬ p b := by
  induction l using List.reverseRecOn with
  | nil =>
    obtain ⟨a, hMem, _⟩ := h
    cases hMem
  | append_singleton rest last ih =>
    by_cases hLast : p last
    · exact ⟨rest, last, [], rfl, hLast, fun b hMem => by cases hMem⟩
    · obtain ⟨a, hMem, ha⟩ := h
      have hRest : a ∈ rest := by
        rcases List.mem_append.mp hMem with hRest | hSame
        · exact hRest
        · rw [List.mem_singleton.mp hSame] at ha
          exact absurd ha hLast
      obtain ⟨past, a', later, rfl, ha', hLater⟩ := ih ⟨a, hRest, ha⟩
      refine ⟨past, a', later ++ [last], by simp, ha', fun b hMem' => ?_⟩
      rcases List.mem_append.mp hMem' with hOld | hSame
      · exact hLater b hOld
      · rw [List.mem_singleton.mp hSame]
        exact hLast

theorem LastExchange.of_concat (h : LastExchange (history ++ [e]) sessionId tokenId now) :
    Exchanges e sessionId tokenId now ∨
      LastExchange history sessionId tokenId now ∧
      ∀ tokenId' now', ¬ Exchanges e sessionId tokenId' now' := by
  obtain ⟨past, found, later, hSplit, hExchanges, hLater⟩ := h
  rcases List.eq_nil_or_concat later with rfl | ⟨rest, last, rfl⟩
  · obtain ⟨_, hSame⟩ := List.append_inj' hSplit rfl
    cases hSame
    exact .inl hExchanges
  · rw [List.concat_eq_append, ← List.cons_append, ← List.append_assoc] at hSplit
    obtain ⟨rfl, hSame⟩ := List.append_inj' hSplit rfl
    cases hSame
    refine .inr ⟨⟨past, found, rest, rfl, hExchanges, fun e' he' => hLater e' ?_⟩, hLater e ?_⟩
    · rw [List.concat_eq_append]
      exact List.mem_append_left _ he'
    · rw [List.concat_eq_append]
      exact List.mem_append_right _ (List.mem_singleton_self e)

/-- What the history says about the rows. -/
structure Chronicle (history : List LogEntry) (db : Database) : Prop where
  consumed : ∀ id t time, db.tokens.get id = some t → t.consumedAt = some time →
    ∃ e ∈ history, Exchanges e t.sessionId id time
  issued : ∀ e ∈ history, ∀ sessionId tokenId now, Exchanges e sessionId tokenId now →
    sessionId ∈ db.issuedSessions
  rotated : ∀ sessionId tokenId now s, LastExchange history sessionId tokenId now →
    db.sessions.get sessionId = some s → s.rotatedAt = some now

theorem chronicle_fresh {db : Database} (h : db.Fresh) : Chronicle [] db where
  consumed id t time hGet := by simp [get_of_rows_nil h.tokens] at hGet
  issued e he := by cases he
  rotated sessionId tokenId now s hLast hGet := by simp [get_of_rows_nil h.sessions] at hGet

theorem rotated_step (h : Chronicle history e.before) (hSane : Sane services e) {s' : Session}
    (hLast : LastExchange (history ++ [e]) sessionId tokenId now)
    (hGet : e.after.sessions.get sessionId = some s') :
    s'.rotatedAt = some now := by
  rcases hLast.of_concat with hHere | ⟨hBefore, hNone⟩
  · obtain ⟨next, metadata, hRotates, hAfter⟩ := hHere.rotates hSane.1
    obtain ⟨s, _, hSession, _⟩ := hRotates.rows
    rw [hAfter, Effect.get_session_apply] at hGet
    simp only [hSession, Option.map_some, if_true, Option.some.injEq] at hGet
    rw [← hGet]
    rfl
  · obtain ⟨effect, hAllowed, hAfter⟩ := hSane.1
    rw [hAfter] at hGet
    rcases effect.session_origin hAllowed hGet with ⟨token, verified, rfl, rfl, _⟩ | ⟨s, hOld, _⟩
    · obtain ⟨past, found, later, rfl, hExchanges, _⟩ := hBefore
      exact absurd (h.issued found (by simp) _ _ _ hExchanges) hAllowed.1
    · have hSame := h.rotated sessionId tokenId now s hBefore hOld
      rw [Effect.get_session_apply] at hGet
      cases effect with
      | start session token verified =>
        simp only [hOld, Option.some_or, Option.some.injEq] at hGet
        exact hGet ▸ hSame
      | rotate sessionId' tokenId' next now' metadata =>
        simp only [hOld, Option.map_some, Option.some.injEq] at hGet
        split at hGet
        · next hId =>
          subst hId
          exact absurd (Rotates.exchanges hAllowed hAfter) (hNone _ _)
        · exact hGet ▸ hSame
      | revoke ids revokedAt reason =>
        simp only [hOld, Option.map_some, Option.some.injEq] at hGet
        subst hGet
        split <;> exact hSame
      | reset authTokens userId passwordHash ids now' =>
        simp only [hOld, Option.map_some, Option.some.injEq] at hGet
        subst hGet
        split <;> exact hSame
      | dropSessions ids =>
        rw [Option.some.inj ((Option.filter_eq_some_iff.mp hGet).1.symm.trans hOld)]
        exact hSame
      | _ =>
        rw [Option.some.inj (hGet.symm.trans hOld)]
        exact hSame

theorem consumed_step (h : Chronicle history e.before) (hSane : Sane services e)
    {t' : SessionRefreshToken} {time : Nat} (hGet : e.after.tokens.get tokenId = some t')
    (hConsumed : t'.consumedAt = some time) :
    ∃ e' ∈ history ++ [e], Exchanges e' t'.sessionId tokenId time := by
  obtain ⟨effect, hAllowed, hAfter⟩ := hSane.1
  have hOrigin := hGet
  rw [hAfter] at hOrigin
  rcases effect.token_origin hAllowed hOrigin
    with ⟨_, _, ⟨session, verified, rfl⟩ | ⟨_, _, _, _, rfl⟩⟩ | ⟨t, hOld, hStep⟩
  · obtain ⟨_, _, _, _, _, hUnconsumed, _⟩ := hAllowed
    cases hUnconsumed.symm.trans hConsumed
  · obtain ⟨_, _, _, _, _, _, _, hNext⟩ := hAllowed.call
    rw [hNext] at hConsumed
    cases hConsumed
  · cases hBefore : t.consumedAt with
    | none =>
      refine ⟨e, List.mem_append_right _ (List.mem_singleton_self _),
        ⟨t, hOld, hStep.sessionId.symm, hBefore⟩, t', hGet, hConsumed⟩
    | some earlier =>
      cases (hStep.consumed earlier hBefore).symm.trans hConsumed
      obtain ⟨e', hMem, hExchanges⟩ := h.consumed tokenId t _ hOld hBefore
      exact ⟨e', List.mem_append_left _ hMem, hStep.sessionId ▸ hExchanges⟩

theorem Chronicle.step (h : Chronicle history e.before) (hSane : Sane services e) :
    Chronicle (history ++ [e]) e.after where
  consumed _ _ _ hGet hConsumed := consumed_step h hSane hGet hConsumed
  issued e' he' sessionId tokenId now hExchanges := by
    refine hSane.1.later.issuedSessions _ ?_
    rcases List.mem_append.mp he' with hOld | hNew
    · exact h.issued e' hOld _ _ _ hExchanges
    · rw [List.mem_singleton.mp hNew] at hExchanges
      obtain ⟨_, _, hRotates, _⟩ := hExchanges.rotates hSane.1
      obtain ⟨s, _, hSession, _⟩ := hRotates.rows
      exact hSane.2.sessionIssued _ _ hSession
  rotated _ _ _ _ hLast hGet := rotated_step h hSane hLast hGet

theorem chronicle_of_path {genesis : Genesis} {t t' : Nat}
    (h : Path (Sane services) genesis.rows t history db t') :
    Chronicle history db := by
  have hAll : Chronicle ([] ++ history) db :=
    h.recorded (P := fun past db _ => Chronicle past db) (fun _ _ _ _ _ hSame => hSame)
      (fun past e _ hSane hHere => hHere.step hSane) (chronicle_fresh genesis.fresh)
  exact hAll

theorem chronicle_of_sound {genesis : Genesis} {s : Shared auth Call}
    (h : (ledger services genesis).Sound s) :
    Chronicle s.history s.db :=
  chronicle_of_path (path_of_sound h)

end Chronicle

/-! ## Reuse is detected -/

section Detected

variable {services : Services} {genesis : Genesis} {now₀ : Nat}
  {w w' w₁ w₂ : World auth Call Outcome} {sid : Nat}
  {s s' : Shared auth Call}

/-- A token stays as long as its session does. -/
theorem token_or_dead {t : SessionRefreshToken} {id : String} (h : Reaches services genesis s s')
    (hGet : s.db.tokens.get id = some t) :
    (∃ t', s'.db.tokens.get id = some t' ∧ TokenStep t t') ∨ Dead s'.db t.sessionId := by
  have hIssued : t.sessionId ∈ s.db.issuedSessions := by
    obtain ⟨row, hRow⟩ := (Sound.consistent h.before).owner id t hGet
    exact (Sound.consistent h.before).sessionIssued _ _ hRow
  refine (path_since h).preserves (P := fun (db : Database) _ =>
    (∃ t', db.tokens.get id = some t' ∧ TokenStep t t') ∨
    Dead db t.sessionId) (fun _ _ _ _ hSame => hSame) (fun e he hSane hHere => ?_)
      (.inl ⟨t, hGet, .refl t⟩)
  rcases hHere with ⟨t', hGet', hStep⟩ | hDead
  · have hLater := hSane.1.later
    cases hAfter : e.after.tokens.get id with
    | some t'' =>
      obtain ⟨found, hFound, hStep'⟩ := hLater.token id (hSane.2.tokenIssued _ _ hGet') t'' hAfter
      cases hGet'.symm.trans hFound
      exact .inl ⟨t'', rfl, hStep.trans hStep'⟩
    | none =>
      obtain ⟨row, hRow⟩ := hSane.2.owner id t' hGet'
      refine .inr ⟨hLater.issuedSessions _ (hStep.sessionId ▸ hSane.2.sessionIssued _ _ hRow),
        fun row' hRow' => ?_⟩
      obtain ⟨effect, _, hEq⟩ := hSane.1
      rw [hEq] at hAfter hRow'
      rw [← hStep.sessionId] at hRow'
      cases (Effect.session_gone hGet' hAfter).symm.trans hRow'
  · exact .inr (hDead.later hSane.1.later)

theorem answered_of_returned {now : Nat} {cookie : Option String}
    {metadata : SessionRequestMetadata} {drawn : IssuedRefreshCredential} {outcome : Outcome}
    (h : World.Leads (system services) (start now₀ genesis) w)
    (hSpawn : World.step (system services) w
      (.spawn sid (.refreshSession now cookie metadata drawn)) = some w₁)
    (hStays : World.Stays (system services) sid w₁ w₂)
    (hReturned : w₂.returned sid = some outcome) :
    Answered services genesis w.shared now cookie w₂.shared := by
  have hWp (ext : Unit) (script : Script auth Outcome)
      (hProgram : system services (.refreshSession now cookie metadata drawn) w.shared =
        some (ext, script))
      (hSound : (ledger services genesis).Sound (w.shared.setExt ext)) :
      Wp (discipline services genesis) (.refreshSession now cookie metadata drawn) script
        (fun _ _ s => Answered services genesis w.shared now cookie s) (.outside [])
          (w.shared.setExt ext) := by
    unfold system at hProgram
    split at hProgram <;> cases hProgram
    refine wp_outcome (Q := fun _ _ s => Answered services genesis w.shared now cookie s) hSound
      (wp_refreshSession rfl _ hSound) fun result l s s' hRely _ hDone => hDone.later hRely
  obtain ⟨_, hAnswered⟩ :=
    (system_meets h).returned verified_system hSpawn hWp hStays (fun _ _ => trivial) hReturned
  exact hAnswered

/-- The exchanges of a session at pairwise distinct times. -/
def DistinctTimes (history : List LogEntry) (sessionId : String) : Prop :=
  history.Pairwise fun e e' => ∀ tokenId tokenId' now now', Exchanges e sessionId tokenId now →
    Exchanges e' sessionId tokenId' now' → now ≠ now'

/-- The session of a token that was exchanged, and another one after it, has not been rotated last
at the time of the first. -/
theorem rotatedAt_ne {history later : List LogEntry} {db : Database} {sessionId tokenId : String}
    {time : Nat} {row : Session} (hChronicle : Chronicle (history ++ later) db)
    (hDistinct : DistinctTimes (history ++ later) sessionId)
    (hExchanged : ∃ e ∈ history, Exchanges e sessionId tokenId time)
    (hNotLast : ∀ now, ¬ LastExchange history sessionId tokenId now)
    (hRow : db.sessions.get sessionId = some row) :
    row.rotatedAt ≠ some time := by
  obtain ⟨e, hMem, hExchanges⟩ := hExchanged
  obtain ⟨past, rest, rfl⟩ := List.append_of_mem hMem
  have hAnother : ∃ e' ∈ rest, ∃ tokenId' now', Exchanges e' sessionId tokenId' now' := by
    by_contra hNone
    refine hNotLast time ⟨past, e, rest, rfl, hExchanges,
      fun e' he' tokenId' now' hExchanges' => ?_⟩
    exact hNone ⟨e', he', tokenId', now', hExchanges'⟩
  obtain ⟨e', he', hAnother⟩ := hAnother
  obtain ⟨before, last, after, hSplit, ⟨tokenId', now', hLast⟩, hAfter⟩ :=
    exists_last (l := rest ++ later)
    (p := fun e' => ∃ tokenId' now', Exchanges e' sessionId tokenId' now') ⟨e',
      List.mem_append_left _ he', hAnother⟩
  have hWhole : past ++ e :: rest ++ later = past ++ e :: before ++ last :: after := by
    rw [List.append_assoc, List.cons_append, hSplit, List.append_assoc, List.cons_append]
  rw [hWhole] at hChronicle hDistinct
  have hRotated := hChronicle.rotated sessionId tokenId' now' row
    ⟨past ++ e :: before, last, after, rfl, hLast,
      fun e'' he'' t n h => hAfter e'' he'' ⟨t, n, h⟩⟩ hRow
  have hApart :=
    (List.pairwise_append.mp hDistinct).2.2 e
      (by simp) last List.mem_cons_self _ _ _ _ hExchanges hLast
  rw [hRotated]
  exact fun hSame => hApart (Option.some.inj hSame).symm

theorem dead_of_reused {now time : Nat} {cookie : Option String} {metadata : SessionRequestMetadata}
    {drawn : IssuedRefreshCredential} {parsed : ParsedRefreshToken} {t : SessionRefreshToken}
    {outcome : Outcome} (h : World.Leads (system services) (start now₀ genesis) w)
    (hSpawn : World.step (system services) w
      (.spawn sid (.refreshSession now cookie metadata drawn)) = some w₁)
    (hParse : parseRefreshToken cookie = some parsed)
    (hGenuine : Genuine services w.shared.db parsed t) (hConsumed : t.consumedAt = some time)
    (hReused : (∀ now, ¬ LastExchange w.shared.history parsed.sessionId parsed.tokenId now) ∨
      time + refreshReuseGraceMs < now) (hStays : World.Stays (system services) sid w₁ w₂)
    (hReturned : w₂.returned sid = some outcome)
    (hDistinct : DistinctTimes w₂.shared.history parsed.sessionId) :
    Dead w₂.shared.db parsed.sessionId := by
  obtain ⟨s₁, hFirst, hSince, hFate⟩ := answered_of_returned h hSpawn hStays hReturned parsed hParse
  obtain ⟨hStored, hOwner, hVerified⟩ := hGenuine
  rcases token_or_dead hFirst hStored with ⟨t', hStored', hStep⟩ | hDead
  swap
  · exact hOwner ▸ hDead.later (rely_later hSince)
  have hGenuine' : Genuine services s₁.db parsed t' :=
    ⟨hStored', hStep.sessionId.trans hOwner, hStep.credentialHash ▸ hVerified⟩
  rcases hFate t' time hGenuine' (hStep.consumed time hConsumed) with hDead |
    ⟨s₂, row, hNext, hLast, hRow, hRotated, hAge⟩
  · exact hDead
  exfalso
  rcases hReused with hNotLast | hLate
  · obtain ⟨later, hLater⟩ := rely_extends (hFirst.trans hNext)
    obtain ⟨rest, hRest⟩ := rely_extends hLast
    have hChronicle := chronicle_of_sound hLast.before
    rw [← hRest] at hDistinct
    have hDistinct₂ := (List.pairwise_append.mp hDistinct).1
    rw [← hLater] at hChronicle hDistinct₂
    obtain ⟨e, hMem, hExchanges⟩ :=
      (chronicle_of_sound (system_sound h)).consumed parsed.tokenId t time hStored hConsumed
    exact rotatedAt_ne hChronicle hDistinct₂ ⟨e, hMem, hOwner ▸ hExchanges⟩ hNotLast hRow hRotated
  · unfold reuseAge at hAge
    omega

end Detected

/-! ## Racing refreshes -/

section Racing

variable {services : Services} {genesis : Genesis} {now₀ : Nat} {w : World auth Call Outcome}
  {sessionId tokenId : String}
  {Racing : Call → Prop}

/-- Calls with one token, close to each other. No other call exchanges the token, and nobody
exchanges the next one before they have read the session. -/
structure Race (history : List LogEntry) (Racing : Call → Prop)
    (sessionId tokenId : String) : Prop where
  presents : ∀ call, Racing call → ∃ now, Presents call sessionId tokenId now
  close : ∀ call call' now now', Racing call → Racing call' → Presents call sessionId tokenId now →
    Presents call' sessionId tokenId now' → reuseAge now now' ≤ refreshReuseGraceMs
  exchanged : ∀ e ∈ history, ∀ now, Exchanges e sessionId tokenId now → Racing e.call
  current : ∀ past read later, history = past ++ read :: later → Racing read.call →
    (read.saw .findSession).isSome →
    ∀ e ∈ past, ∀ now, Exchanges e sessionId tokenId now → LastExchange past sessionId tokenId now

theorem presents_unique {call : Call} {now now' : Nat} {sessionId' tokenId' : String}
    (h : Presents call sessionId tokenId now) (h' : Presents call sessionId' tokenId' now') :
    sessionId' = sessionId ∧ tokenId' = tokenId ∧ now' = now := by
  obtain ⟨_, _, _, parsed, rfl, hParse, rfl, rfl⟩ := h
  obtain ⟨_, _, _, parsed', hCall, hParse', rfl, rfl⟩ := h'
  cases hCall
  cases hParse.symm.trans hParse'
  exact ⟨rfl, rfl, rfl⟩

theorem Exchanges.presents {e : LogEntry} {now : Nat} (h : Exchanges e sessionId tokenId now)
    (hLegal : Legal services e) :
    Presents e.call sessionId tokenId now := by
  obtain ⟨next, metadata, hRotates, _⟩ := h.rotates hLegal
  obtain ⟨cookie, drawn, parsed, hCall, hParse, hSession, hToken, _⟩ := hRotates.call
  exact ⟨cookie, metadata, drawn, parsed, hCall, hParse, hSession, hToken⟩

theorem chronicle_of_split {past later : List LogEntry} {e : LogEntry}
    (h : World.Leads (system services) (start now₀ genesis) w)
    (hSplit : w.shared.history = past ++ e :: later) : Chronicle past e.before := by
  have hPath := system_path h
  rw [hSplit] at hPath
  obtain ⟨⟨_, hFirst⟩, _⟩ := hPath.around
  exact chronicle_of_path hFirst

theorem Race.not_suspicious (hRace : Race w.shared.history Racing sessionId tokenId)
    (h : World.Leads (system services) (start now₀ genesis) w) {past later : List LogEntry}
    {e : LogEntry} (hSplit : w.shared.history = past ++ e :: later) (hRacing : Racing e.call) :
    ¬ Suspicious past e.call sessionId := by
  rintro ⟨now, cookie, metadata, drawn, parsed, hCall, hParse, rfl, earlier, read, rest, t, s,
    consumedAt, rfl,
    ⟨found, hFound, hToken⟩, hOwner, hConsumed, hReadCall, hSaw, hSession, hNot⟩
  have hMine : Presents e.call parsed.sessionId parsed.tokenId now :=
    ⟨cookie, metadata, drawn, parsed, hCall, hParse, rfl, rfl⟩
  obtain ⟨now', hPresents⟩ := hRace.presents e.call hRacing
  obtain ⟨_, rfl, _⟩ := presents_unique hMine hPresents
  have hSplitRead : w.shared.history = earlier ++ read :: (rest ++ e :: later) := by
    rw [hSplit, List.append_assoc, List.cons_append]
  -- the token has been exchanged when the call finds it consumed
  obtain ⟨before, after, hEarlier⟩ := List.append_of_mem hFound
  have hSplitFound : w.shared.history =
    before ++ found :: (after ++ read :: (rest ++ e :: later)) := by
    rw [hSplitRead, hEarlier, List.append_assoc, List.cons_append]
  obtain ⟨exchange, hMem, hExchanges⟩ :=
    (chronicle_of_split h hSplitFound).consumed parsed.tokenId t consumedAt hToken hConsumed
  rw [hOwner] at hExchanges
  have hPast : exchange ∈ earlier := hEarlier ▸ List.mem_append_left _ hMem
  have hInHistory : exchange ∈ w.shared.history := hSplitRead ▸ List.mem_append_left _ hPast
  have hExchangeCall := hExchanges.presents ((system_path h).legal exchange hInHistory).1
  -- and it is still the last one when the call reads the session
  have hReadRacing : Racing read.call := hReadCall ▸ hRacing
  have hLast :=
    hRace.current earlier read _ hSplitRead hReadRacing
      (by rw [hSaw]; rfl) exchange hPast _ hExchanges
  refine hNot ⟨(chronicle_of_split h hSplitRead).rotated _ _ _ s hLast hSession, ?_⟩
  exact hRace.close e.call exchange.call now consumedAt hRacing
    (hRace.exchanged exchange hInHistory _ hExchanges) hMine hExchangeCall

theorem Revokes.of_refresh {e : LogEntry} {ids : List String} {now revokedAt : Nat}
    {reason : SessionRevokedReason} (h : Revokes e ids revokedAt reason)
    (hPresents : Presents e.call sessionId tokenId now) :
    reason = .expired ∧ Presents e.call sessionId tokenId revokedAt ∨ reason = .refreshReuse := by
  obtain ⟨cookie, metadata, drawn, parsed, hCall, hParse, hSession, hToken⟩ := hPresents
  rcases h.known with rfl | rfl | rfl | ⟨_, userId, hAll⟩
  · obtain ⟨cookie', metadata', drawn', _, hCall', _⟩ := h.refresh (.inl rfl)
    cases hCall.symm.trans hCall'
    exact .inl ⟨rfl, cookie, metadata, drawn, parsed, hCall, hParse, hSession, hToken⟩
  · obtain ⟨_, _, hLogout, _⟩ := h.logout rfl
    cases hCall.symm.trans hLogout
  · exact .inr rfl
  · cases hCall.symm.trans hAll

theorem Race.revokes_expired (hRace : Race w.shared.history Racing sessionId tokenId)
    (h : World.Leads (system services) (start now₀ genesis) w) {e : LogEntry}
    (hMem : e ∈ w.shared.history) (hRacing : Racing e.call) {s s' : Session}
    (hGet : e.before.sessions.get sessionId = some s) (hOpen : s.revokedAt = none)
    (hGet' : e.after.sessions.get sessionId = some s') (hRevoked : s'.revokedAt ≠ none) :
    s'.revokedReason = some .expired ∧ ∃ now, Presents e.call sessionId tokenId now ∧
      s.expiresAt ≤ now := by
  obtain ⟨past, later, hSplit⟩ := List.append_of_mem hMem
  obtain ⟨hLegal, hCons⟩ := (system_path h).legal e hMem
  have hTraffic := (system_sound h).2 past e later hSplit sessionId
  obtain ⟨now, hPresents⟩ := hRace.presents e.call hRacing
  obtain ⟨effect, hAllowed, hAfter⟩ := hLegal
  rw [hAfter, Effect.get_session_apply] at hGet'
  cases effect with
  | start session token verified =>
    simp only [hGet, Option.some_or, Option.some.injEq] at hGet'
    exact absurd (hGet' ▸ hOpen) hRevoked
  | rotate sessionId' tokenId' next now' metadata =>
    simp only [hGet, Option.map_some, Option.some.injEq] at hGet'
    subst hGet'
    split at hRevoked <;> exact absurd hOpen hRevoked
  | revoke ids revokedAt reason =>
    have hReason := hAllowed.of_refresh hPresents
    simp only [hGet, Option.map_some, Option.some.injEq] at hGet'
    split at hGet'
    swap
    · rw [← hGet'] at hRevoked
      exact absurd hOpen hRevoked
    next hIn =>
    subst hGet'
    rcases hReason with ⟨rfl, hNow⟩ | rfl
    · exact ⟨rfl, revokedAt, hNow, hAllowed.expired rfl sessionId hIn s hGet⟩
    · refine absurd (hTraffic ⟨s, s.revoke revokedAt .refreshReuse, hGet, ?_, ?_, rfl⟩)
        (hRace.not_suspicious h hSplit hRacing)
      · rw [hAfter, Effect.get_session_apply]
        simp only [hGet, Option.map_some, if_pos hIn]
      · rw [hCons.unrevoked sessionId s hGet hOpen]
        simp
  | reset authTokens userId passwordHash ids now' =>
    obtain ⟨token, hCall⟩ := hAllowed.call
    obtain ⟨_, _, _, _, hRefresh, _⟩ := hPresents
    cases hCall.symm.trans hRefresh
  | dropSessions ids =>
    rw [Option.some.inj ((Option.filter_eq_some_iff.mp hGet').1.symm.trans hGet)] at hRevoked
    exact absurd hOpen hRevoked
  | _ =>
    rw [Option.some.inj (hGet'.symm.trans hGet)] at hRevoked
    exact absurd hOpen hRevoked

end Racing

/-- For a session whose rotations happen at different times: a refresh with a token that was
exchanged before, but not last, or too long ago, leaves the session dead. Refreshes that race with
one token leave it alone, unless it has expired. -/
theorem reuse_detection (services : Services) (genesis : Genesis) (now₀ : Nat)
    (w : World auth Call Outcome) (h : World.Leads (system services) (start now₀ genesis) w) :
    (∀ sid now cookie metadata drawn parsed t time w₁ w₂ outcome,
      World.step (system services) w (.spawn sid (.refreshSession now cookie metadata drawn)) =
        some w₁ →
      parseRefreshToken cookie = some parsed → Genuine services w.shared.db parsed t →
      t.consumedAt = some time →
      (∀ last, ¬ LastExchange w.shared.history parsed.sessionId parsed.tokenId last) ∨ time +
        refreshReuseGraceMs < now →
      World.Stays (system services) sid w₁ w₂ → w₂.returned sid = some outcome →
      DistinctTimes w₂.shared.history parsed.sessionId → Dead w₂.shared.db parsed.sessionId) ∧
    ∀ Racing sessionId tokenId, Race w.shared.history Racing sessionId tokenId →
      ∀ e ∈ w.shared.history, Racing e.call → ∀ s s',
        e.before.sessions.get sessionId = some s → s.revokedAt = none →
      e.after.sessions.get sessionId = some s' → s'.revokedAt ≠ none →
      s'.revokedReason = some .expired ∧ ∃ now, Presents e.call sessionId tokenId now ∧
        s.expiresAt ≤ now := by
  constructor
  · intro sid now cookie metadata drawn parsed t time w₁ w₂ outcome hSpawn hParse hGenuine hConsumed
      hReused hStays
      hReturned hDistinct
    exact dead_of_reused h hSpawn hParse hGenuine hConsumed hReused hStays hReturned hDistinct
  · intro Racing sessionId tokenId hRace e hMem hRacing s s' hGet hOpen hGet' hRevoked
    exact hRace.revokes_expired h hMem hRacing hGet hOpen hGet' hRevoked

namespace Sample

/-- The token `a` is exchanged, and presented once more when the grace period is over. -/
theorem reuse_detection_replay : ∃ w₂, World.Leads (system services) (start 0 genesis) w₂ ∧
    w₂.returned 2 = some (.refreshed (.error .unauthorized)) ∧ Dead w₂.shared.db "s" := by
  have hRun : ((run (signIn ++ refresh 1 0 "a" "b" ++ [.tick 4000])).bind fun w =>
      (World.step (system services) w
        (.spawn 2 (.refreshSession 4000 (cookie "a") browser (credential "c")))).bind fun w₁ =>
      (World.run (system services) w₁ (runs 2 3)).map fun w₂ =>
        (w.shared.db.tokens.get "a", w₂.returned 2,
        decide ((w₂.shared.history.map fun e => (e.saw .rotateSession).isSome).Pairwise fun a b =>
          a = true → ¬ b = true))) =
      some (some ⟨"a", "s", "#a.x", some 0⟩, some (.refreshed (.error .unauthorized)), true) := by
        decide
  obtain ⟨w, hW, hRun⟩ := Option.bind_eq_some_iff.mp hRun
  obtain ⟨w₁, hSpawn, hRun⟩ := Option.bind_eq_some_iff.mp hRun
  obtain ⟨w₂, hReplay, hFacts⟩ := Option.map_eq_some_iff.mp hRun
  simp only [Prod.mk.injEq, decide_eq_true_eq] at hFacts
  obtain ⟨hToken, hReturned, hOnce⟩ := hFacts
  have hLeads := World.leads_of_run hW
  have hLeads₂ : World.Leads (system services) (start 0 genesis) w₂ :=
    (hLeads.tail ⟨_, hSpawn⟩).trans (World.leads_of_run hReplay)
  have hParse : parseRefreshToken (cookie "a") = some ⟨"s", "a", "a.x"⟩ := by decide
  refine ⟨w₂, hLeads₂, hReturned,
    (reuse_detection services genesis 0 w hLeads).1 2 4000 (cookie "a") browser (credential "c")
    ⟨"s", "a", "a.x"⟩ ⟨"a", "s", "#a.x", some 0⟩ 0 w₁ w₂ _ hSpawn hParse
      ⟨hToken, rfl, by decide⟩ rfl (.inr (by decide))
    (World.stays_of_run hReplay (by simp [runs])) hReturned ?_⟩
  have hRotates {e : LogEntry} (he : e ∈ w₂.shared.history) {tokenId : String} {now : Nat}
    (h : Exchanges e "s" tokenId now) :
      (e.saw .rotateSession).isSome = true := by
    obtain ⟨_, _, hRotates, _⟩ := h.rotates ((system_path hLeads₂).legal e he).1
    obtain ⟨_, _, _, _, _, _, _, _, _, db, hSaw, _⟩ := hRotates.rows
    rw [hSaw]
    rfl
  refine (List.pairwise_map.mp hOnce).imp_of_mem fun he he' hApart tokenId tokenId' now now' h h' =>
    ?_
  exact absurd (hRotates he' h') (hApart (hRotates he h))

/-- The current token of a session that has expired. -/
def late : Call := .refreshSession 100001 (cookie "a") browser (credential "b")

theorem race_expired : ∃ w, World.Leads (system services) (start 0 genesis) w ∧
    Race w.shared.history (· = late) "s" "a" ∧ ∃ e ∈ w.shared.history, e.call = late ∧
      (e.before.sessions.get "s").map Session.revokedAt = some none ∧
      (e.after.sessions.get "s").map Session.revokedAt = some (some 100001) := by
  have hRun : (run (signIn ++ .tick 100001 :: .spawn 1 late :: runs 1 3)).map (fun w =>
      (w.shared.history.all fun e => (e.after.tokens.get "a").all fun t => t.consumedAt.isNone,
        w.shared.history.any fun e =>
        e.call = late ∧ (e.before.sessions.get "s").map Session.revokedAt = some none ∧
          (e.after.sessions.get "s").map Session.revokedAt = some (some 100001))) =
            some (true, true) := by decide
  obtain ⟨w, hW, hFacts⟩ := Option.map_eq_some_iff.mp hRun
  simp only [Prod.mk.injEq, List.all_eq_true, List.any_eq_true, decide_eq_true_eq] at hFacts
  obtain ⟨hUnused, hRevokes⟩ := hFacts
  have hNever {e : LogEntry} (he : e ∈ w.shared.history)
    (now : Nat) : ¬ Exchanges e "s" "a" now := by
    rintro ⟨_, t, hGet, hConsumed⟩
    have hOpen := hUnused e he
    rw [hGet, Option.all_some, hConsumed] at hOpen
    cases hOpen
  have hPresents : Presents late "s" "a" 100001 :=
    ⟨_, _, _, ⟨"s", "a", "a.x"⟩, rfl, by decide, rfl, rfl⟩
  refine ⟨w, World.leads_of_run hW, ⟨?_, ?_, ?_, ?_⟩, hRevokes⟩
  · rintro call rfl
    exact ⟨_, hPresents⟩
  · rintro call call' now now' rfl rfl h h'
    rw [(presents_unique hPresents h).2.2, (presents_unique hPresents h').2.2]
    decide
  · exact fun e he now h => absurd h (hNever he now)
  · intro past read later hSplit _ _ e he now h
    exact absurd h (hNever (hSplit ▸ List.mem_append_left _ he) now)

end Sample

end Pixaeron.Auth
