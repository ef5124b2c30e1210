import Pixaeron.Transactions.Writes
import Pixaeron.Transactions.Ledger
import Pixaeron.Auth.Accounts

/-! # The ledger of one-time tokens

A transaction puts in at most one row, under the lock of its user and kind, and consumes or deletes
others. The rows of the other tables do not matter here.
-/

namespace Pixaeron.Auth.OneTime

open Transactions Transactions.Script

abbrev AccountEntry := Entry auth AccountCall

def issuesTokens : AccountCall → Bool
  | .register .. | .resendEmailVerification .. | .requestPasswordReset .. => true
  | _ => false

def presentedHash (services : Services) : AccountCall → Option String
  | .verifyEmail token => some (services.digest token)
  | .resetPassword token _ => some (services.digest token)
  | _ => none

/-- The statements that only an accepted token leads to. -/
def grants : Statement → Bool
  | .setEmailVerified | .setPassword => true
  | _ => false

structure Spends (services : Services) (e : AccountEntry) (tokenHash : String) : Prop where
  error : e.error = none
  presented : presentedHash services e.call = some tokenHash
  granted : ∃ p ∈ e.reads, grants p.1 = true

/-- The row is the same, or has been consumed. -/
def Ages (t t' : AuthToken) : Prop := t' = t ∨ ∃ now, t' = t.consume now

theorem Ages.id_eq {t t' : AuthToken} (h : Ages t t') : t'.id = t.id := by
  obtain rfl | ⟨now, rfl⟩ := h <;> rfl

theorem Ages.hash_eq {t t' : AuthToken} (h : Ages t t') : t'.tokenHash = t.tokenHash := by
  obtain rfl | ⟨now, rfl⟩ := h <;> rfl

theorem Ages.owner_eq {t t' : AuthToken} (h : Ages t t') :
    t'.userId = t.userId ∧ t'.type = t.type := by
  obtain rfl | ⟨now, rfl⟩ := h <;> exact ⟨rfl, rfl⟩

theorem Ages.eq_of_unconsumed {t t' : AuthToken} (h : Ages t t')
    (hOpen : t'.consumedAt = none) : t' = t := by
  obtain rfl | ⟨now, rfl⟩ := h
  · rfl
  · cases hOpen

def issuedKey (t : AuthToken) : String × String := (t.id, t.tokenHash)

/-- What an entry does to the one-time tokens; `inserted` is the row that it puts in, if any. -/
structure Does (services : Services) (e : AccountEntry) (inserted : Option AuthToken) : Prop where
  kept : e.error ≠ none → e.after = e.before
  unclashed : issuesTokens e.call = true → e.error ≠ some (.uniqueConstraint oneActivePerUserType)
  issued : e.after.issuedAuthTokens = (inserted.map issuedKey).toList ++ e.before.issuedAuthTokens
  rows : ∀ t' ∈ e.after.authTokens.rows, inserted = some t' ∨
    ∃ t ∈ e.before.authTokens.rows, Ages t t'
  fresh : ∀ t, inserted = some t → ∀ p ∈ e.before.issuedAuthTokens, p.1 ≠ t.id ∧ p.2 ≠ t.tokenHash
  alone : ∀ t, inserted = some t → ∀ t' ∈ e.after.authTokens.rows,
    t'.activeFor t.userId t.type = true → t' = t
  spent : ∀ tokenHash, Spends services e tokenHash → ∃ t ∈ e.before.authTokens.rows,
    t.tokenHash = tokenHash ∧
    t.consumedAt = none ∧ ∀ t' ∈ e.after.authTokens.rows, t'.id = t.id → t'.consumedAt ≠ none

def Legal (services : Services) (e : AccountEntry) : Prop := ∃ inserted, Does services e inserted

/-- What the holder of a lock relies on: nobody else touches a locked row or uses a locked
identifier or hash, and nobody else issues a token of the locked kind. -/
def Respects : Resource → AccountEntry → Prop
  | .authToken id, e =>
    (∀ t, e.before.authTokens.get id = some t → e.after.authTokens.get id = some t) ∧
    ((∀ p ∈ e.before.issuedAuthTokens, p.1 ≠ id) → ∀ p ∈ e.after.issuedAuthTokens, p.1 ≠ id)
  | .authTokenHash tokenHash, e => (∀ p ∈ e.before.issuedAuthTokens, p.2 ≠ tokenHash) →
    ∀ p ∈ e.after.issuedAuthTokens, p.2 ≠ tokenHash
  | .tokenIssue userId type, e => ∀ t ∈ e.after.authTokens.rows, t.activeFor userId type = true →
    t ∈ e.before.authTokens.rows
  | _, _ => True

def ledger (services : Services) : Ledger auth AccountCall where
  genesis := emptyDatabase
  Legal := Legal services
  Respects := Respects
  Moves _ _ := True
  Spares _ _ _ := True
  Traffic _ := True
  Free _ _ := True
  Assume _ := True
  moves_refl _ := trivial
  moves_trans _ _ _ _ _ := trivial
  spares_refl _ _ := trivial
  spares_trans _ _ _ _ _ _ _ _ _ := trivial

abbrev discipline (services : Services) : Discipline auth AccountCall :=
  (ledger services).discipline

variable {services : Services} {s s' : Shared auth AccountCall} {held : Resource → Prop}

/-! ## Invariants -/

/-- Rows are remembered, no identifier and no hash is used twice, and of the rows of one user and
kind at most one is unconsumed. -/
structure Consistent (db : Database) : Prop where
  remembered : ∀ t ∈ db.authTokens.rows, issuedKey t ∈ db.issuedAuthTokens
  apart : ∀ p ∈ db.issuedAuthTokens, ∀ q ∈ db.issuedAuthTokens, p.1 = q.1 ∨ p.2 = q.2 → p = q
  active : ∀ t ∈ db.authTokens.rows, t.consumedAt = none →
    ∀ t' ∈ db.authTokens.rows, t'.activeFor t.userId t.type = true → t' = t

theorem activeFor_iff {t : AuthToken} {userId : Nat} {type : AuthTokenType} :
    t.activeFor userId type = true ↔ t.userId = userId ∧ t.type = type ∧ t.consumedAt = none := by
  simp only [AuthToken.activeFor, Bool.decide_and, Bool.and_eq_true, decide_eq_true_eq]

theorem Does.issued_of_before {e : AccountEntry} {inserted : Option AuthToken}
    (h : Does services e inserted) :
    ∀ p ∈ e.before.issuedAuthTokens, p ∈ e.after.issuedAuthTokens := by
  intro p hp
  rw [h.issued]
  exact List.mem_append_right _ hp

theorem Does.mem_issued {e : AccountEntry} {inserted : Option AuthToken}
    (h : Does services e inserted) {p : String × String} (hp : p ∈ e.after.issuedAuthTokens) :
    p ∈ e.before.issuedAuthTokens ∨ ∃ t, inserted = some t ∧ p = issuedKey t := by
  rw [h.issued] at hp
  rcases List.mem_append.mp hp with hNew | hOld
  · obtain ⟨t, hInserted, rfl⟩ := Option.map_eq_some_iff.mp (Option.mem_toList.mp hNew)
    exact .inr ⟨t, hInserted, rfl⟩
  · exact .inl hOld

theorem Consistent.step {e : AccountEntry} {inserted : Option AuthToken} (h : Consistent e.before)
    (hDoes : Does services e inserted) : Consistent e.after where
  remembered t' ht' := by
    rcases hDoes.rows t' ht' with rfl | ⟨t, ht, hAges⟩
    · rw [hDoes.issued]
      exact List.mem_cons_self
    · have hKey : issuedKey t' = issuedKey t := by
        rw [issuedKey, issuedKey, hAges.id_eq, hAges.hash_eq]
      rw [hKey]
      exact hDoes.issued_of_before _ (h.remembered t ht)
  apart p hp q hq hSame := by
    rcases hDoes.mem_issued hp with hOld | ⟨t, rfl, rfl⟩
    · rcases hDoes.mem_issued hq with hOld' | ⟨t', rfl, rfl⟩
      · exact h.apart p hOld q hOld' hSame
      · obtain ⟨hId, hHash⟩ := hDoes.fresh t' rfl p hOld
        exact absurd hSame (not_or.mpr ⟨hId, hHash⟩)
    · rcases hDoes.mem_issued hq with hOld' | ⟨t', hEq, rfl⟩
      · obtain ⟨hId, hHash⟩ := hDoes.fresh t rfl q hOld'
        exact absurd hSame (not_or.mpr ⟨fun hEq => hId hEq.symm, fun hEq => hHash hEq.symm⟩)
      · cases hEq
        rfl
  active t₁ ht₁ hOpen t₂ ht₂ hActive := by
    rcases hDoes.rows t₁ ht₁ with rfl | ⟨old₁, hOld₁, hAges₁⟩
    · exact hDoes.alone t₁ rfl t₂ ht₂ hActive
    · obtain ⟨hUser, hType, hOpen₂⟩ := activeFor_iff.mp hActive
      rcases hDoes.rows t₂ ht₂ with rfl | ⟨old₂, hOld₂, hAges₂⟩
      · exact (hDoes.alone t₂ rfl t₁ ht₁ (activeFor_iff.mpr ⟨hUser.symm, hType.symm, hOpen⟩)).symm
      · obtain rfl := hAges₁.eq_of_unconsumed hOpen
        obtain rfl := hAges₂.eq_of_unconsumed hOpen₂
        exact h.active t₁ hOld₁ hOpen t₂ hOld₂ hActive

theorem consistent_empty : Consistent emptyDatabase where
  remembered t ht := by cases ht
  apart p hp := by cases hp
  active t ht := by cases ht

theorem consistent_of_path {es : List AccountEntry} {db db' : Database} {t t' : Nat}
    (h : Path (Legal services) db t es db' t') (hStart : Consistent db) : Consistent db' :=
  h.preserves (P := fun (db : Database) _ => Consistent db) (fun _ _ _ _ hSame => hSame)
    (fun _ _ ⟨_, hDoes⟩ hHere => hHere.step hDoes) hStart

theorem Sound.consistent (h : (ledger services).Sound s) : Consistent s.db :=
  consistent_of_path h.1 consistent_empty

theorem Consistent.hash_eq {db : Database} (h : Consistent db) {id hash hash' : String}
    (hOne : (id, hash) ∈ db.issuedAuthTokens) (hOther : (id, hash') ∈ db.issuedAuthTokens) :
    hash = hash' :=
  (Prod.mk.inj (h.apart _ hOne _ hOther (.inl rfl))).2

/-! ## What a lock holder relies on -/

section Rely

variable (h : (discipline services).Rely held s s')

include h

theorem rely_issued : ∀ p ∈ s.db.issuedAuthTokens, p ∈ s'.db.issuedAuthTokens := by
  intro p hp
  exact Ledger.rely_preserves h (P := fun (db : Database) _ => p ∈ db.issuedAuthTokens)
    (fun _ _ _ _ hSame => hSame)
    (fun _ ⟨_, hDoes⟩ _ _ hHere => hDoes.issued_of_before p hHere) hp

theorem rely_row {id : String} (hHeld : held (.authToken id)) {t : AuthToken}
    (hGet : s.db.authTokens.get id = some t) :
    s'.db.authTokens.get id = some t :=
  Ledger.rely_preserves h (P := fun (db : Database) _ => db.authTokens.get id = some t)
    (fun _ _ _ _ hSame => hSame)
    (fun _ _ _ hRespects hHere => (hRespects _ hHeld).1 t hHere) hGet

theorem rely_unused {new : AuthToken} (hId : held (.authToken new.id))
    (hHash : held (.authTokenHash new.tokenHash))
    (hFresh : ∀ p ∈ s.db.issuedAuthTokens, p.1 ≠ new.id ∧ p.2 ≠ new.tokenHash) :
    ∀ p ∈ s'.db.issuedAuthTokens, p.1 ≠ new.id ∧ p.2 ≠ new.tokenHash := by
  have hBoth := Ledger.rely_preserves h (P := fun (db : Database) _ =>
    (∀ p ∈ db.issuedAuthTokens, p.1 ≠ new.id) ∧ ∀ p ∈ db.issuedAuthTokens,
      p.2 ≠ new.tokenHash) (fun _ _ _ _ hSame => hSame)
    (fun _ _ _ hRespects hHere => ⟨(hRespects _ hId).2 hHere.1, hRespects _ hHash hHere.2⟩)
    ⟨fun p hp => (hFresh p hp).1, fun p hp => (hFresh p hp).2⟩
  exact fun p hp => ⟨hBoth.1 p hp, hBoth.2 p hp⟩

theorem rely_active {userId : Nat} {type : AuthTokenType} (hHeld : held (.tokenIssue userId type))
    {ids : List String} (hHere : ∀ t ∈ s.db.authTokens.rows,
      t.activeFor userId type = true → t.id ∈ ids) :
    ∀ t ∈ s'.db.authTokens.rows, t.activeFor userId type = true → t.id ∈ ids :=
  Ledger.rely_preserves h
    (P := fun (db : Database) _ => ∀ t ∈ db.authTokens.rows,
      t.activeFor userId type = true → t.id ∈ ids)
    (fun _ _ _ _ hSame => hSame)
    (fun _ _ _ hRespects hBefore t ht hActive => hBefore t (hRespects _ hHeld t ht hActive) hActive)
      hHere

end Rely

/-! ## Entries -/

theorem guarantee_does {e : AccountEntry} (inserted : Option AuthToken)
    (hSound : (ledger services).Sound s) (hBefore : e.before = s.db) (hEnded : e.endedAt = s.now)
    (hDoes : Does services e inserted) (hRespects : ∀ r, ¬ held r → Respects r e) :
    (discipline services).Guarantee held s (s.record e) :=
  Ledger.guarantee_record hSound hBefore hEnded ⟨inserted, hDoes⟩ trivial hRespects
    (fun _ _ => trivial) fun _ _ _ => trivial

theorem guarantee_calm {e : AccountEntry} (hSound : (ledger services).Sound s)
    (hBefore : e.before = s.db) (hEnded : e.endedAt = s.now)
    (hKept : e.error ≠ none → e.after = e.before)
    (hUnclashed : issuesTokens e.call = true →
      e.error ≠ some (.uniqueConstraint oneActivePerUserType))
    (hTokens : e.after.authTokens = e.before.authTokens)
    (hIssued : e.after.issuedAuthTokens = e.before.issuedAuthTokens)
    (hUnspent : ∀ tokenHash, ¬ Spends services e tokenHash) :
    (discipline services).Guarantee held s (s.record e) := by
  refine guarantee_does none hSound hBefore hEnded ?_ fun r _ => ?_
  · exact {
      kept := hKept
      unclashed := hUnclashed
      issued := hIssued
      rows := fun t ht => .inr ⟨t, hTokens ▸ ht, .inl rfl⟩
      fresh := fun t ht => by cases ht
      alone := fun t ht => by cases ht
      spent := fun tokenHash hSpends => absurd hSpends (hUnspent tokenHash) }
  · cases r with
    | authToken id =>
      refine ⟨fun t hGet => ?_, fun hNone => ?_⟩
      · rw [hTokens]
        exact hGet
      · rw [hIssued]
        exact hNone
    | authTokenHash tokenHash =>
      intro hNone
      rw [hIssued]
      exact hNone
    | tokenIssue userId type =>
      intro t ht _
      rw [← hTokens]
      exact ht
    | _ => trivial

/-- A transaction that fails, for any reason but a second active token. -/
theorem undoable {call : AccountCall} {l : Local auth} {tx : LocalTx auth} {error : Failure}
    (hSound : (ledger services).Sound s)
    (hUnclashed : issuesTokens call = true → error ≠ .uniqueConstraint oneActivePerUserType) :
    Undoable (discipline services) call l tx error s := by
  refine fun _ =>
    ⟨guarantee_calm hSound rfl rfl (fun _ => rfl) (fun hCall hClash => ?_) rfl rfl
      fun _ hSpends => ?_, fun _ _ => trivial⟩
  · exact hUnclashed hCall (Option.some.inj hClash)
  · cases hSpends.error

theorem safe_any {call : AccountCall} {l : Local auth} : Safe (discipline services) call l s := by
  refine fun s' hRely tx _ => undoable hRely.inv fun _ hClash => ?_
  cases hClash

end Pixaeron.Auth.OneTime
