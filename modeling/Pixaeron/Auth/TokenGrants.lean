import Pixaeron.Auth.TokenUse
import Pixaeron.Auth.GoogleSignIn
import Pixaeron.Auth.Verified.Credentials

/-! # What a token grants

Whoever has not received the e-mail of a user can neither verify the address of that user nor set
the password, in whatever order the calls run. -/

namespace Pixaeron.Auth.Credentials

open Transactions OneTime

section Runs

variable {services : Services} {now : Nat} {w : World auth AccountCall AccountOutcome}

theorem told_of_run (hLeads : World.Leads (accountSystem services) (accountStart now) w) :
    (grounds services).Told emptyDatabase w.shared := grounded_accounts.told hLeads

/-! ## The presented token -/

/-- The rows of the hash are this one, as it was or consumed. -/
structure Stems (t : AuthToken) (db : Database) : Prop where
  issued : ∃ id, (id, t.tokenHash) ∈ db.issuedAuthTokens
  ages : ∀ t' ∈ db.authTokens.rows, t'.tokenHash = t.tokenHash → Ages t t'

theorem stems_of_mem {db : Database} {t : AuthToken} (h : OneTime.Consistent db)
    (hMem : t ∈ db.authTokens.rows) : Stems t db := by
  refine ⟨⟨t.id, h.remembered t hMem⟩, fun t' ht' hHash => .inl ?_⟩
  have hId : t'.id = t.id :=
    (Prod.mk.inj (h.apart _ (h.remembered t' ht') _ (h.remembered t hMem) (.inr hHash))).1
  have hGet := Table.get_of_mem ht'
  rw [hId, Table.get_of_mem hMem] at hGet
  exact (Option.some.inj hGet).symm

theorem Stems.step {e : AccountEntry} {inserted : Option AuthToken} {t : AuthToken}
    (h : Stems t e.before) (hDoes : Does services e inserted) : Stems t e.after := by
  obtain ⟨id, hIssued⟩ := h.issued
  refine ⟨⟨id, hDoes.issued_of_before _ hIssued⟩, fun t' ht' hHash => ?_⟩
  obtain ⟨old, hOld, hAges⟩ := hDoes.aged hIssued ht' hHash
  exact Ages.trans (h.ages old hOld (hAges.hash_eq ▸ hHash)) hAges

theorem stems_of_path {es : List AccountEntry} {db db' : Database} {time time' : Nat}
    {t : AuthToken} (h : Path (OneTime.Legal services) db time es db' time')
    (hStems : Stems t db) : Stems t db' :=
  h.preserves (P := fun (db : Database) _ => Stems t db) (fun _ _ _ _ hSame => hSame)
    (fun _ _ ⟨_, hDoes⟩ hHere => hHere.step hDoes) hStems

/-- The commit of a call that presents a token finds the token as the call has found it, and
consumes it. -/
theorem spent_of_presents {past later : List AccountEntry} {e : AccountEntry}
    {known : Database → Prop} {p : Progress auth} {id : Nat} {found : AuthToken}
    (hLeads : World.Leads (accountSystem services) (accountStart now) w)
    (hSplit : w.shared.history = past ++ e :: later) (hError : e.error = none)
    (hReads : p.reads = e.reads) (hKnown : ∀ db, known db → Occurred emptyDatabase past db)
    (h : Presents services e.call known p id found) :
    found ∈ e.before.authTokens.rows ∧ found.consumedAt = none ∧
      ∀ t' ∈ e.after.authTokens.rows, t'.id = found.id → t'.consumedAt ≠ none := by
  have hPath := (OneTime.sound_of_run hLeads).1
  rw [hSplit] at hPath
  obtain ⟨⟨time, hFirst⟩, ⟨inserted, hDoes⟩, _⟩ := hPath.around
  obtain ⟨db, hDb, hStored⟩ := h.stored
  obtain ⟨_, _, _, hEarlier, hSince⟩ := (hKnown db hDb).path hFirst
  have hStems :=
    stems_of_path hSince (stems_of_mem (consistent_of_path hEarlier consistent_empty) hStored)
  obtain ⟨q, hq, hGrants⟩ := h.granted
  obtain ⟨t, ht, hHash, hOpen, hConsumed⟩ :=
    hDoes.spent found.tokenHash ⟨hError, h.presented, q, hReads ▸ hq, hGrants⟩
  obtain rfl := (hStems.ages t ht hHash).eq_of_unconsumed hOpen
  exact ⟨ht, hOpen, hConsumed⟩

/-- A transaction changes a user who was there only by what its call grants, and only for a token of
that user and of the right kind that it presents, that is stored unconsumed, has not expired when
the transaction begins, and is consumed by it. -/
theorem changed_by_token (hLeads : World.Leads (accountSystem services) (accountStart now) w) :
    ∀ e ∈ w.shared.history, ∀ id u, e.before.users.get id = some u → e.after.users.get id ≠ some u →
      e.after.users.get id = some (grant e.call u) ∧ ∃ t ∈ e.before.authTokens.rows,
        presentedHash services e.call = some t.tokenHash ∧ purpose e.call = some t.type ∧
        t.userId = id ∧
        t.consumedAt = none ∧ e.startedAt < t.expiresAt ∧
        ∀ t' ∈ e.after.authTokens.rows, t'.id = t.id → t'.consumedAt ≠ none := by
  intro e he id u hGet hChanged
  obtain ⟨past, later, hSplit⟩ := List.append_of_mem he
  rcases told_of_run hLeads past e later hSplit with ⟨_, hSame⟩ |
    ⟨hError, known, p, hFair, hStarted, hReads, hAfter, hKnown⟩
  · rw [hSame] at hChanged
    exact absurd hGet hChanged
  rw [hAfter] at hChanged
  obtain ⟨hGrant, found, hPresents⟩ := (hFair.users e.before id u hGet).resolve_left hChanged
  obtain ⟨hMem, hOpen, hConsumed⟩ := spent_of_presents hLeads hSplit hError hReads hKnown hPresents
  refine ⟨hAfter ▸ hGrant, found, hMem, hPresents.presented, hPresents.kind, hPresents.owner, hOpen,
    ?_, hConsumed⟩
  exact hStarted ▸ hPresents.unexpired

/-! ## Where it comes from -/

/-- A call has asked for the recovery of the password of this address, and the text of the token was
drawn for it. -/
def Requested (services : Services) (past : List AccountEntry)
    (address tokenHash : String) : Prop :=
  ∃ e ∈ past, ∃ email drawn, e.call = .requestPasswordReset email drawn ∧
    services.normalizeEmail email = address ∧
    services.digest drawn.token = tokenHash

/-- The recovery tokens have been asked for with the addresses of their users. -/
def Addressed (services : Services) (past : List AccountEntry) (db : Database) : Prop :=
  ∀ t ∈ db.authTokens.rows, t.type = .passwordReset → ∃ address,
    Google.emailOf db t.userId = some address ∧
    Requested services past address t.tokenHash

theorem Requested.record {past : List AccountEntry} {address tokenHash : String} {e : AccountEntry}
    (h : Requested services past address tokenHash) :
    Requested services (past ++ [e]) address tokenHash := by
  obtain ⟨old, hOld, hRest⟩ := h
  exact ⟨old, List.mem_append_left _ hOld, hRest⟩

theorem Addressed.step {past : List AccountEntry} {e : AccountEntry} {time : Nat}
    (h : Addressed services past e.before)
    (hJustified : Justified (grounds services) emptyDatabase past e)
    (hPath : Path (Google.Legal services) emptyDatabase 0 past e.before time)
    (hLegal : Google.Legal services e) : Addressed services (past ++ [e]) e.after := by
  intro t' ht' hType
  have hAged {t : AuthToken} (ht : t ∈ e.before.authTokens.rows) (hAges : Ages t t') :
      ∃ address, Google.emailOf e.after t'.userId = some address ∧
        Requested services (past ++ [e]) address t'.tokenHash := by
    obtain ⟨hUser, hKind⟩ := hAges.owner_eq
    obtain ⟨address, hAddress, hRequested⟩ := h t ht (hKind.symm.trans hType)
    refine ⟨address, ?_, hAges.hash_eq ▸ hRequested.record⟩
    rw [hUser]
    exact hLegal.later.emails _ _ hAddress
  rcases hJustified with ⟨_, hSame⟩ | ⟨_, known, p, hFair, _, _, hAfter, hKnown⟩
  · rw [hSame] at ht'
    exact hAged ht' (.inl rfl)
  rw [hAfter] at ht'
  rcases hFair.tokens e.before t' ht' with ⟨t, ht, hAges⟩ | hMailed
  · exact hAged ht hAges
  cases hMailed with
  | verification hOther => cases hOther.symm.trans hType
  | @recovery email drawn db u hCall hDb hUser hOwner hHash =>
    obtain ⟨_, _, _, _, hSince⟩ := (hKnown db hDb).path hPath
    refine ⟨services.normalizeEmail email, ?_, e,
      List.mem_append_right _ (List.mem_singleton_self e), email, drawn, hCall, rfl, hHash.symm⟩
    rw [hOwner]
    exact hLegal.later.emails _ _ ((Google.later_of_path hSince).emails _ _
      (Google.emailOf_of_userByEmail hUser))

theorem addressed_before (hLeads : World.Leads (accountSystem services) (accountStart now) w)
    {past later : List AccountEntry} {e : AccountEntry}
    (hSplit : w.shared.history = past ++ e :: later) : Addressed services past e.before := by
  have hPath := (Google.sound_of_run hLeads).1
  rw [hSplit] at hPath
  obtain ⟨⟨time, hFirst⟩, _⟩ := hPath.around
  have hTold := told_of_run hLeads
  suffices hAll : Path (Google.Legal services) emptyDatabase 0 ([] ++ past) e.before time ∧
      (([] ++ past) <+: w.shared.history → Addressed services ([] ++ past) e.before) from
    hAll.2 ⟨e :: later, hSplit.symm⟩
  refine hFirst.recorded (P := fun past db time =>
    Path (Google.Legal services) emptyDatabase 0 past db time ∧
    (past <+: w.shared.history → Addressed services past db))
      (fun _ _ _ _ hTime h => ⟨h.1.later hTime, h.2⟩) ?_ ⟨.rest le_rfl, ?_⟩
  · intro past' e' _ hLegal ⟨hHere, hSoFar⟩
    refine ⟨hHere.append (.single rfl rfl hLegal), fun ⟨rest, hRest⟩ => ?_⟩
    rw [← List.append_cons] at hRest
    exact (hSoFar ⟨e' :: rest, hRest⟩).step (hTold past' e' rest hRest.symm) hHere hLegal
  · intro _ t ht
    cases ht

/-- The password of a user who was there changes only by a reset that presents a token which has
been drawn for a request with the address of that user. -/
theorem password_changed_by_addressee
    (hLeads : World.Leads (accountSystem services) (accountStart now) w) :
    ∀ past e later, w.shared.history = past ++ e :: later → ∀ id u u',
      e.before.users.get id = some u →
      e.after.users.get id = some u' → u'.password ≠ u.password →
      ∃ token passwordHash, e.call = .resetPassword token passwordHash ∧
        u' = u.setPassword passwordHash ∧
        Requested services past u.email (services.digest token) := by
  intro past e later hSplit id u u' hGet hGet' hPassword
  have hTold := told_of_run hLeads past e later hSplit
  rcases hTold with ⟨_, hSame⟩ | ⟨hError, known, p, hFair, hStarted, hReads, hAfter, hKnown⟩
  · rw [hSame] at hGet'
    cases hGet.symm.trans hGet'
    exact absurd rfl hPassword
  rw [hAfter] at hGet'
  rcases hFair.users e.before id u hGet with hSame | ⟨hGrant, found, hPresents⟩
  · cases hSame.symm.trans hGet'
    exact absurd rfl hPassword
  cases hGrant.symm.trans hGet'
  obtain ⟨hMem, _, _⟩ := spent_of_presents hLeads hSplit hError hReads hKnown hPresents
  obtain ⟨hPresented, hKind, hOwner⟩ : _ ∧ _ ∧ _ :=
    ⟨hPresents.presented, hPresents.kind, hPresents.owner⟩
  cases hCall : e.call with
  | resetPassword token passwordHash =>
    rw [hCall] at hPresented hKind
    obtain ⟨address, hAddress, hRequested⟩ :=
      addressed_before hLeads hSplit found hMem (Option.some.inj hKind).symm
    have hEmail : Google.emailOf e.before id = some u.email := by
      rw [Google.emailOf, hGet, Option.map_some]
    rw [hOwner, hEmail, Option.some.injEq] at hAddress
    refine ⟨token, passwordHash, rfl, rfl, ?_⟩
    rw [hAddress, Option.some.inj hPresented]
    exact hRequested
  | _ =>
    rw [hCall] at hPassword
    exact absurd rfl hPassword

end Runs

namespace Sample

open Auth.Sample

def alice : User := ⟨1, "a", "alice", some "#password", false⟩

/-- A user registers, asks for the recovery of the password and sets another one. -/
def recovery : List (Action auth AccountCall) :=
  .spawn 0 (.register ⟨"alice", consent⟩ "#password" ⟨1, "a"⟩ ⟨"1", "verification"⟩) :: steps 0 8 ++
  .spawn 1 (.requestPasswordReset "alice" ⟨"2", "recovery"⟩) :: steps 1 7 ++
  .spawn 2 (.resetPassword "recovery" "#other") :: steps 2 9

theorem recovery_end : ∃ w past e, World.Leads (accountSystem accountServices) (accountStart 0) w ∧
    w.shared.history = past ++ e :: [] ∧
    e.before.users.get 1 = some alice ∧
    e.after.users.get 1 = some (alice.setPassword "#other") := by
  have hRun : (accountRun recovery).bind
    (fun w => w.shared.history.getLast?.map fun e => (e.before.users.get 1, e.after.users.get 1)) =
      some (some alice, some (alice.setPassword "#other")) := by decide
  obtain ⟨w, hW, hLast⟩ := Option.bind_eq_some_iff.mp hRun
  obtain ⟨e, hE, hUsers⟩ := Option.map_eq_some_iff.mp hLast
  obtain ⟨hBefore, hAfter⟩ := Prod.mk.inj hUsers
  obtain ⟨past, hSplit⟩ := List.getLast?_eq_some_iff.mp hE
  exact ⟨w, past, e, World.leads_of_run hW, hSplit, hBefore, hAfter⟩

theorem changed_by_token_recovery :
    ∃ w e, World.Leads (accountSystem accountServices) (accountStart 0) w ∧ e ∈ w.shared.history ∧
    e.after.users.get 1 = some (grant e.call alice) ∧ ∃ t ∈ e.before.authTokens.rows, t.userId = 1 ∧
      t.consumedAt = none := by
  obtain ⟨w, past, e, hLeads, hSplit, hBefore, hAfter⟩ := recovery_end
  have hMem : e ∈ w.shared.history := by simp [hSplit]
  have hChanged : e.after.users.get 1 ≠ some alice := by
    rw [hAfter]
    decide
  obtain ⟨hGrant, t, ht, _, _, hOwner, hOpen, _⟩ :=
    changed_by_token hLeads e hMem 1 alice hBefore hChanged
  exact ⟨w, e, hLeads, hMem, hGrant, t, ht, hOwner, hOpen⟩

theorem password_changed_by_addressee_recovery :
    ∃ w past e, World.Leads (accountSystem accountServices) (accountStart 0) w ∧
    w.shared.history = past ++ e :: [] ∧ ∃ token passwordHash,
      e.call = .resetPassword token passwordHash ∧
      Requested accountServices past "alice" (accountServices.digest token) := by
  obtain ⟨w, past, e, hLeads, hSplit, hBefore, hAfter⟩ := recovery_end
  obtain ⟨token, passwordHash, hCall, _, hRequested⟩ :=
    password_changed_by_addressee hLeads past e [] hSplit 1 alice _ hBefore hAfter (by decide)
  exact ⟨w, past, e, hLeads, hSplit, token, passwordHash, hCall, hRequested⟩

end Sample

end Pixaeron.Auth.Credentials
