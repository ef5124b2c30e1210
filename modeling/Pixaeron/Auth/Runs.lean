import Pixaeron.Transactions.Conduct
import Pixaeron.Auth.Verified.System

/-! # Runs of the auth system

What the discipline gives for whole runs, and what it means that a refresh token is exchanged.
-/

namespace Pixaeron.Auth

open Transactions

abbrev Running := Transactions.Session auth Call Outcome

section Runs

variable {services : Services} {genesis : Genesis} {now : Nat} {w w' : World auth Call Outcome}

theorem sound_start : (ledger services genesis).Sound (start now genesis).shared := by
  refine ⟨.rest (Nat.zero_le _), fun past e later hSplit => ?_⟩
  have hLength := congrArg List.length hSplit
  simp [start, World.idle] at hLength

theorem system_meets (h : World.Leads (system services) (start now genesis) w) :
    World.Meets (discipline services genesis) w :=
  ((World.meets_idle sound_start fun _ => trivial).leads verified_system h fun _ _ => trivial).1

theorem system_sound (h : World.Leads (system services) (start now genesis) w) :
    (ledger services genesis).Sound w.shared :=
  (system_meets h).inv

theorem system_reaches (h : World.Leads (system services) (start now genesis) w)
    (h' : World.Leads (system services) w w') : Reaches services genesis w.shared w'.shared := by
  obtain ⟨hMeets', hEvolves⟩ := (system_meets h).leads verified_system h' fun _ _ => trivial
  exact ⟨(system_meets h).inv, hMeets'.inv, hEvolves, fun _ hNo => hNo.elim⟩

theorem system_consistent (h : World.Leads (system services) (start now genesis) w) :
    Consistent w.shared.db :=
  Sound.consistent (system_sound h)

/-- The legal entries of a sound state, each from a consistent state. -/
def Sane (services : Services) (e : LogEntry) : Prop := Legal services e ∧ Consistent e.before

theorem path_of_sound {s : Shared auth Call} (h : (ledger services genesis).Sound s) :
    Path (Sane services) genesis.rows 0 s.history s.db s.now := by
  refine h.1.mono fun e he => ⟨h.1.legal e he, ?_⟩
  exact consistent_of_reached (Ledger.reached_entries ⟨[], .rest le_rfl⟩ h.1 e he)

theorem system_path (h : World.Leads (system services) (start now genesis) w) :
    Path (Sane services) genesis.rows 0 w.shared.history w.shared.db w.shared.now :=
  path_of_sound (system_sound h)

theorem path_since {s s' : Shared auth Call} (h : Reaches services genesis s s') :
    Path (Sane services) s.db s.now (s'.history.drop s.history.length) s'.db s'.now := by
  obtain ⟨⟨es, hHistory, hPath⟩, _⟩ := h.evolves
  have hNew : s'.history.drop s.history.length = es := by simp [hHistory]
  rw [hNew]
  refine hPath.mono fun e he => ⟨hPath.legal e he, ?_⟩
  exact consistent_of_reached (Ledger.reached_entries (Ledger.Sound.reached h.before) hPath e he)

end Runs

theorem conducts_require {α : Type} {Calm : (Database → Database) → Prop}
    {Loud : (Database → Database) → Script auth α → Prop}
    {Q : Option (Database → Database) → α → Prop} {condition : Prop} [Decidable condition]
    {error : Failure} {k : Unit → Script auth α} {tx : Option (Database → Database)}
    (h : condition → (k ()).Conducts Calm Loud Q tx) :
    ((require condition error).bind k).Conducts Calm Loud Q tx := by
  unfold require
  split
  · next hTrue => exact h hTrue
  · trivial

/-! ## Exchanges -/

section Exchanges

/-- A refresh token of the session is exchanged at the time `now`. -/
structure Exchanges (e : LogEntry) (sessionId tokenId : String) (now : Nat) : Prop where
  before : ∃ t, e.before.tokens.get tokenId = some t ∧ t.sessionId = sessionId ∧ t.consumedAt = none
  after : ∃ t, e.after.tokens.get tokenId = some t ∧ t.consumedAt = some now

variable {services : Services} {e : LogEntry} {sessionId tokenId : String} {now : Nat}

instance : Decidable (Exchanges e sessionId tokenId now) :=
  decidable_of_iff
    (((e.before.tokens.get tokenId).any fun t => t.sessionId = sessionId ∧ t.consumedAt = none) =
      true ∧
      ((e.after.tokens.get tokenId).any fun t => t.consumedAt = some now) = true) <| by
    simp only [Option.any_eq_true, decide_eq_true_eq]
    exact ⟨fun h => ⟨h.1, h.2⟩, fun h => ⟨h.before, h.after⟩⟩

theorem Exchanges.rotates (h : Exchanges e sessionId tokenId now) (hLegal : Legal services e) :
    ∃ next metadata, Rotates services e sessionId tokenId next now metadata ∧
      e.after = (Effect.rotate sessionId tokenId next now metadata).apply e.before := by
  obtain ⟨effect, hAllowed, hAfter⟩ := hLegal
  obtain ⟨⟨t, hGet, hOwner, hOpen⟩, t', hGet', hConsumed⟩ := h
  rw [hAfter, Effect.get_token_apply] at hGet'
  cases effect with
  | start session token verified =>
    simp only [hGet, Option.some_or, Option.some.injEq] at hGet'
    rw [← hGet', hOpen] at hConsumed
    cases hConsumed
  | rotate sessionId' tokenId' next now' metadata =>
    simp only [hGet, Option.map_some, Option.some_or, Option.some.injEq] at hGet'
    subst hGet'
    split at hConsumed
    · next hId =>
      subst hId
      obtain ⟨_, used, _, hUsed, hOwner', _⟩ := hAllowed.rows
      cases hGet.symm.trans hUsed
      cases hConsumed
      exact ⟨next, metadata, hOwner'.symm.trans hOwner ▸ hAllowed,
        by rw [hAfter, hOwner'.symm.trans hOwner]⟩
    · rw [hOpen] at hConsumed
      cases hConsumed
  | dropSessions ids =>
    cases hGet.symm.trans (Option.filter_eq_some_iff.mp hGet').1
    cases hOpen.symm.trans hConsumed
  | _ =>
    cases hGet.symm.trans hGet'
    cases hOpen.symm.trans hConsumed

theorem Rotates.exchanges {next : SessionRefreshToken} {metadata : SessionRequestMetadata}
    (h : Rotates services e sessionId tokenId next now metadata)
    (hAfter : e.after = (Effect.rotate sessionId tokenId next now metadata).apply e.before) :
    Exchanges e sessionId tokenId now := by
  obtain ⟨_, t, _, hGet, hOwner, _, hOpen, _⟩ := h.rows
  refine ⟨⟨t, hGet, hOwner, hOpen⟩, t.consume now, ?_, rfl⟩
  rw [hAfter, Effect.get_token_apply]
  simp only [hGet, Option.map_some, if_true, Option.some_or]

/-- A token that has been exchanged is consumed or gone for good. -/
def Spent (db : Database) (tokenId : String) : Prop :=
  tokenId ∈ db.issuedTokens ∧ ∀ t, db.tokens.get tokenId = some t → t.consumedAt ≠ none

theorem Spent.later {db db' : Database} (h : Spent db tokenId)
    (hLater : Later db db') : Spent db' tokenId := by
  refine ⟨hLater.issuedTokens _ h.1, fun t' hGet hOpen => ?_⟩
  obtain ⟨t, hOld, hStep⟩ := hLater.token _ h.1 t' hGet
  obtain ⟨time, hTime⟩ := Option.ne_none_iff_exists'.mp (h.2 t hOld)
  cases hOpen.symm.trans (hStep.consumed time hTime)

theorem Exchanges.spent (h : Exchanges e sessionId tokenId now)
    (hSane : Sane services e) : Spent e.after tokenId := by
  obtain ⟨⟨t, hGet, _⟩, t', hGet', hConsumed⟩ := h
  refine ⟨hSane.1.later.issuedTokens _ (hSane.2.tokenIssued _ _ hGet), fun t'' hGet'' hOpen => ?_⟩
  cases hGet'.symm.trans hGet''
  cases hOpen.symm.trans hConsumed

theorem Spent.not_exchanged (h : Spent e.before tokenId) : ¬ Exchanges e sessionId tokenId now := by
  rintro ⟨⟨t, hGet, _, hOpen⟩, _⟩
  exact h.2 t hGet hOpen

theorem Dead.not_exchanged (hDead : Dead e.before sessionId) (hLegal : Legal services e) :
    ¬ Exchanges e sessionId tokenId now := by
  intro h
  obtain ⟨next, metadata, hRotates, _⟩ := h.rotates hLegal
  obtain ⟨s, _, hSession, _, _, _, _, hOpen, _⟩ := hRotates.rows
  exact hDead.2 s hSession hOpen

theorem not_exchanged_of_dead {genesis : Genesis} {now₀ : Nat} {w w₃ : World auth Call Outcome}
    {id : String} (h : World.Leads (system services) (start now₀ genesis) w)
    (hDead : Dead w.shared.db id) (hLater : World.Leads (system services) w w₃) :
    ∀ e ∈ w₃.shared.history.drop w.shared.history.length, ∀ tokenId now,
      ¬ Exchanges e id tokenId now := by
  refine (path_since (system_reaches h hLater)).all (Q := fun db => Dead db id)
    (fun e hSane hHere => ?_) hDead
  exact ⟨hHere.later hSane.1.later, fun tokenId now => hHere.not_exchanged hSane.1⟩

end Exchanges

/-! ## Alice

A user with a password, used where a run is to be looked at. Hashes are marked by a `#`.
-/

namespace Sample

def services : Services :=
  ⟨fun credential hash => hash == "#" ++ credential, fun password hash => hash == "#" ++ password,
    "", id, id, id, 100000, 100000⟩

def alice : User := ⟨1, "alice", "alice", some "#password", true⟩

def genesis : Genesis where
  rows :=
    { users := ⟨[alice], by decide⟩
      accounts := .empty
      sessions := .empty
      tokens := .empty
      authTokens := ⟨[⟨"r", 1, .passwordReset, "reset", 900000, none⟩], by decide⟩
      issuedSessions := []
      issuedTokens := []
      issuedAuthTokens := []
      signIns := [] }
  fresh := ⟨rfl, rfl, rfl⟩

def browser : SessionRequestMetadata := ⟨none, none⟩

def credential (tokenId : String) : IssuedRefreshCredential :=
  ⟨tokenId ++ ".x", "#" ++ tokenId ++ ".x", tokenId⟩

def cookie (tokenId : String) : Option String := some ("s." ++ tokenId ++ ".x")

def runs (sid steps : Nat) : List (Action auth Call) := List.replicate steps (.run sid)

/-- Session `s` with the refresh token `a`. -/
def signIn : List (Action auth Call) :=
  .spawn 0 (.login "alice" "password" browser ⟨"s", credential "a"⟩ false) :: runs 0 8

def refresh (sid now : Nat) (presented drawn : String) : List (Action auth Call) :=
  .spawn sid (.refreshSession now (cookie presented) browser (credential drawn)) :: runs sid 7

def run (actions : List (Action auth Call)) : Option (World auth Call Outcome) :=
  World.run (system services) (start 0 genesis) actions

end Sample

end Pixaeron.Auth
