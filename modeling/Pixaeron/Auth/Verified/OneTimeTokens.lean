import Pixaeron.Transactions.Endings
import Pixaeron.Transactions.Rules
import Pixaeron.Auth.OneTimeTokens

/-! # Verified: one-time tokens

A token is issued under the lock of its user and kind, after the older ones have been consumed
there. A token that is accepted has been unconsumed when its row was locked, and stays so until the
commit that consumes it.
-/

namespace Pixaeron.Auth.OneTime

open Transactions Transactions.Script

variable {services : Services} {call : AccountCall} {s : Shared auth AccountCall} {α : Type}
  {replies : List Unit}

/-- The change consumes these one-time tokens and does nothing else to them. -/
def Consumes (ids : List String) (now : Nat) (change : Database → Database) : Prop :=
  ∀ db, (change db).authTokens = (db.consumeAuthTokens ids now).authTokens ∧
    (change db).issuedAuthTokens = db.issuedAuthTokens

/-- The change leaves the one-time tokens alone. -/
def Calm (change : Database → Database) : Prop :=
  ∀ db, (change db).authTokens = db.authTokens ∧ (change db).issuedAuthTokens = db.issuedAuthTokens

theorem calm_id : Calm id := fun _ => ⟨rfl, rfl⟩

theorem Calm.comp {f g : Database → Database} (hf : Calm f) (hg : Calm g) : Calm (f ∘ g) :=
  fun db => ⟨((hf (g db)).1).trans (hg db).1, ((hf (g db)).2).trans (hg db).2⟩

theorem Calm.consumes {change : Database → Database} (h : Calm change)
    (now : Nat) : Consumes [] now change :=
  fun db => by
    rw [Database.consumeAuthTokens_nil]
    exact h db

theorem Consumes.calm {ids : List String} {now : Nat} {f g : Database → Database} (hf : Calm f)
    (hg : Consumes ids now g) :
    Consumes ids now (f ∘ g) :=
  fun db => ⟨((hf (g db)).1).trans (hg db).1, ((hf (g db)).2).trans (hg db).2⟩

theorem mem_consumed {db : Database} {ids : List String} {now : Nat} {t' : AuthToken} :
    t' ∈ (db.consumeAuthTokens ids now).authTokens.rows ↔
      ∃ t ∈ db.authTokens.rows, (if t.id ∈ ids then t.consume now else t) = t' := by
  rw [Database.consumeAuthTokens, Table.rows_modify, List.mem_map]

theorem ages_of_consume (ids : List String) (now : Nat) (t : AuthToken) :
    Ages t (if t.id ∈ ids then t.consume now else t) := by
  split
  · exact .inr ⟨now, rfl⟩
  · exact .inl rfl

theorem id_consume {ids : List String} {now : Nat} {t : AuthToken} :
    (if t.id ∈ ids then t.consume now else t).id = t.id :=
  (ages_of_consume ids now t).id_eq

/-- A transaction that consumes tokens whose rows it has locked. If it has granted something, the
presented token is one of them. -/
theorem wp_commitConsume {a : α} {l : Local auth} {tx : LocalTx auth} (ids : List String)
    (now : Nat) (hTx : l.tx = some tx) (hPending : Consumes ids now tx.pending)
    (hHeld : ∀ id ∈ ids, l.held (.authToken id))
    (hSpent : ∀ s', (discipline services).Rely l.held s s' → ∀ tokenHash,
      presentedHash services call = some tokenHash →
      (∃ p ∈ tx.reads, grants p.1 = true) → ∃ t ∈ s'.db.authTokens.rows,
      t.tokenHash = tokenHash ∧ t.consumedAt = none ∧ t.id ∈ ids) :
    Wp (discipline services) call (.commit (.done a)) (fun _ _ _ => True) l s := by
  refine Wp.commit hTx safe_any fun s' hRely _ _ =>
    ⟨?_, fun _ _ => trivial, Wp.done safe_any fun _ _ => trivial⟩
  obtain ⟨hTokens, hIssued⟩ := hPending s'.db
  refine guarantee_does none hRely.inv rfl rfl ?_ fun r hr => ?_
  · exact {
      kept := fun hError => absurd rfl hError
      unclashed := fun _ hClash => by cases hClash
      issued := hIssued
      rows := fun t' ht' => by
        obtain ⟨t, ht, rfl⟩ := mem_consumed.mp (hTokens ▸ ht')
        exact .inr ⟨t, ht, ages_of_consume _ _ _⟩
      fresh := fun t ht => by cases ht
      alone := fun t ht => by cases ht
      spent := fun tokenHash hSpends => by
        obtain ⟨t, ht, hHash, hOpen, hMem⟩ :=
          hSpent s' hRely tokenHash hSpends.presented hSpends.granted
        refine ⟨t, ht, hHash, hOpen, fun t' ht' hId => ?_⟩
        obtain ⟨t₀, ht₀, rfl⟩ := mem_consumed.mp (hTokens ▸ ht')
        rw [id_consume] at hId
        rw [if_pos (hId ▸ hMem)]
        exact Option.some_ne_none _ }
  · cases r with
    | authToken id =>
      refine ⟨fun t hGet => ?_, fun hNone => ?_⟩
      · have hApart : id ∉ ids := fun hMem => hr (hHeld id hMem)
        show (tx.pending s'.db).authTokens.get id = some t
        rw [hTokens, Database.consumeAuthTokens, Table.get_modify_of_not_mem hApart]
        exact hGet
      · show ∀ p ∈ (tx.pending s'.db).issuedAuthTokens, p.1 ≠ id
        rw [hIssued]
        exact hNone
    | authTokenHash tokenHash =>
      intro hNone
      show ∀ p ∈ (tx.pending s'.db).issuedAuthTokens, p.2 ≠ tokenHash
      rw [hIssued]
      exact hNone
    | tokenIssue userId type =>
      intro t' ht' hActive
      obtain ⟨t, ht, hEq⟩ := mem_consumed.mp (hTokens ▸ ht')
      have hSame : t' = t :=
        (hEq ▸ ages_of_consume _ _ _ : Ages t t').eq_of_unconsumed (activeFor_iff.mp hActive).2.2
      exact hSame ▸ ht
    | _ => trivial

theorem wp_commitCalm {a : α} {l : Local auth} {tx : LocalTx auth} (hTx : l.tx = some tx)
    (hPending : Calm tx.pending) (hUngranted : presentedHash services call = none ∨ ∀ p ∈ tx.reads,
      grants p.1 = false) :
    Wp (discipline services) call (.commit (.done a)) (fun _ _ _ => True) l s := by
  refine wp_commitConsume [] 0 hTx (hPending.consumes 0)
    (fun id hMem => by cases hMem) fun s' _ tokenHash hPresented hGranted => ?_
  rcases hUngranted with hNone | hNone
  · cases hPresented.symm.trans hNone
  · obtain ⟨p, hp, hGrants⟩ := hGranted
    cases hGrants.symm.trans (hNone p hp)

theorem wp_failAny {Q : α → Local auth → Shared auth AccountCall → Prop} {l : Local auth}
    {error : Failure} (hUnclashed : issuesTokens call = true →
      error ≠ .uniqueConstraint oneActivePerUserType) :
    Wp (discipline services) call (.fail error) Q l s :=
  Wp.fail safe_any fun _ hRely _ _ => undoable hRely.inv hUnclashed

/-- The tokens that `WHERE id = … AND consumed_at IS NULL …` consumes. -/
theorem select_consumable {db : Database} {id : String} {p : AuthToken → Bool}
    (hId : ∀ t, p t = true → t.id = id) (hCount : (db.authTokens.select p).length = 1) :
    ∃ t, db.authTokens.get id = some t ∧ p t = true ∧
      (db.authTokens.select p).map AuthToken.id = [id] := by
  obtain ⟨t, hOne⟩ := List.length_eq_one_iff.mp hCount
  obtain ⟨hMem, hp⟩ := Table.mem_select.mp (hOne ▸ List.mem_singleton_self t)
  refine ⟨t, ?_, hp, ?_⟩
  · rw [← hId t hp]
    exact Table.get_of_mem hMem
  · rw [hOne, List.map_singleton, hId t hp]

/-! ## Using a token -/

/-- The presented token has been found unconsumed and its row is locked. -/
structure Accepted (services : Services) (call : AccountCall) (id : String) (l : Local auth)
    (s : Shared auth AccountCall) :
    Prop where
  held : l.held (.authToken id)
  row : ∃ t, s.db.authTokens.get id = some t ∧ t.consumedAt = none ∧
    ∀ tokenHash, presentedHash services call = some tokenHash → t.tokenHash = tokenHash

theorem Accepted.later {id : String} {l : Local auth} {s' : Shared auth AccountCall}
    (h : Accepted services call id l s) (hRely : (discipline services).Rely l.held s s') :
    Accepted services call id l s' := by
  obtain ⟨t, hGet, hRest⟩ := h.row
  exact ⟨h.held, t, rely_row hRely h.held hGet, hRest⟩

theorem Accepted.ran {id : String} {l : Local auth} (h : Accepted services call id l s)
    (tx : LocalTx auth) (name : Statement) (locks : View auth → List Resource)
    (write : View auth → Database → Database) (v : View auth) :
    Accepted services call id (l.ran tx name locks write v) s := ⟨.inl h.held, h.row⟩

/-- The token has been found before its row was locked; the row is still the one of its hash. -/
theorem accepted_of_found {token : String} {found : AuthToken} {p : AuthToken → Bool}
    {l : Local auth} {tx : LocalTx auth} {name : Statement} {now : Nat} {v : View auth}
    {s₀ : Shared auth AccountCall}
    (hPresented : presentedHash services call = some (services.digest token))
    (hFound : found ∈ s₀.db.authTokens.rows) (hHash : found.tokenHash = services.digest token)
    {other : Resource → Prop} (hRely : (discipline services).Rely other s₀ s)
    (hDb : v.db.authTokens = s.db.authTokens)
    (hId : ∀ t, p t = true → t.id = found.id ∧ t.consumedAt = none)
    (hCount : (v.db.authTokens.select p).length = 1) :
    Accepted services call found.id (l.ran tx name (fun v => (v.db.authTokens.select p).map fun t =>
      .authToken t.id)
      (fun v db => db.consumeAuthTokens ((v.db.authTokens.select p).map AuthToken.id) now) v)
        s := by
  obtain ⟨t, hGet, hp, hIds⟩ := select_consumable (fun t ht => (hId t ht).1) hCount
  rw [hDb] at hGet
  refine ⟨.inr ?_, t, hGet, (hId t hp).2, fun tokenHash hSame => ?_⟩
  · have hLocks : (v.db.authTokens.select p).map (fun t => Resource.authToken t.id) =
        ((v.db.authTokens.select p).map AuthToken.id).map Resource.authToken := by
          rw [List.map_map]; rfl
    show Resource.authToken found.id ∈ (v.db.authTokens.select p).map fun t =>
      Resource.authToken t.id
    rw [hLocks, hIds]
    exact List.mem_singleton_self _
  · cases hPresented.symm.trans hSame
    have hOld := rely_issued hRely _ ((Sound.consistent hRely.before).remembered found hFound)
    have hNew := (Sound.consistent hRely.inv).remembered t (Table.mem_of_get hGet)
    rw [issuedKey, Table.key_of_get hGet] at hNew
    rw [← hHash]
    exact (Sound.consistent hRely.inv).hash_eq hNew hOld

theorem wp_commitAccepted {a : α} {l : Local auth} {tx : LocalTx auth} {id : String} {now : Nat}
    (hTx : l.tx = some tx) (hPending : Consumes [id] now tx.pending)
    (h : Accepted services call id l s) :
    Wp (discipline services) call (.commit (.done a)) (fun _ _ _ => True) l s := by
  refine wp_commitConsume [id] now hTx hPending (fun id' hMem => ?_)
    fun s' hRely tokenHash hPresented _ => ?_
  · rw [List.mem_singleton.mp hMem]
    exact h.held
  · obtain ⟨t, hGet, hOpen, hHash⟩ := (h.later hRely).row
    exact ⟨t, Table.mem_of_get hGet, hHash tokenHash hPresented, hOpen,
      List.mem_singleton.mpr (Table.key_of_get hGet)⟩

theorem consumes_after (now : Nat) {ids ids' : List String} {change : Database → Database}
    (hCalm : Calm change) (hIds : ids = ids') :
    Consumes ids' now ((fun db => db.consumeAuthTokens ids now) ∘ change) := by
  intro db
  obtain ⟨hTokens, hIssued⟩ := hCalm db
  subst hIds
  refine ⟨?_, hIssued⟩
  show ((change db).consumeAuthTokens _ _).authTokens = (db.consumeAuthTokens _ _).authTokens
  rw [Database.consumeAuthTokens, Database.consumeAuthTokens, hTokens]

theorem found_of_find {db : Database} {token : String} {type : AuthTokenType} {found : AuthToken}
    (h : (db.authTokens.rows.find? fun t => t.tokenHash = services.digest token ∧ t.type = type) =
      some found) :
    found ∈ db.authTokens.rows ∧ found.tokenHash = services.digest token := by
  have hp := List.find?_some h
  exact ⟨List.mem_of_find?_eq_some h, (of_decide_eq_true hp).1⟩

/-- What an accepted token leads to, up to the commit: statements that leave the tokens alone. -/
theorem wp_granting {p : Script auth α} {id : String} {now : Nat} {l : Local auth}
    {tx : LocalTx auth} (hBody : p.Body) (hWrites : p.Writes Calm fun _ => False)
    (hIssues : issuesTokens call = false) (hTx : l.tx = some tx)
    (hPending : Consumes [id] now tx.pending) (h : Accepted services call id l s) :
    Wp (discipline services) call p (fun a => Wp (discipline services) call
      (.commit (.done a)) fun _ _ _ => True) l s := by
  refine Wp.of_body (I := fun l s => (∃ tx, l.tx = some tx ∧ Consumes [id] now tx.pending) ∧
    Accepted services call id l s) hBody
    hWrites (fun l s hHere => ?_) (fun l s s' hHere hRely => ?_)
      (fun l s tx name locks write v hHere hOpen hCalm => ?_)
    (fun l s tx error _ hInv _ => ?_) (fun a l s hHere => ?_) ⟨⟨tx, hTx, hPending⟩, h⟩
  · obtain ⟨⟨tx, hOpen, _⟩, _⟩ := hHere
    exact ⟨tx, hOpen⟩
  · exact ⟨hHere.1, hHere.2.later hRely⟩
  · obtain ⟨⟨tx', hOpen', hConsumes⟩, hAccepted⟩ := hHere
    cases hOpen.symm.trans hOpen'
    exact ⟨⟨_, rfl, Consumes.calm (f := write v) hCalm hConsumes⟩, hAccepted.ran ..⟩
  · exact undoable hInv fun hCall => by cases hIssues.symm.trans hCall
  · obtain ⟨⟨tx, hOpen, hConsumes⟩, hAccepted⟩ := hHere
    exact wp_commitAccepted hOpen hConsumes hAccepted

theorem calm_verifyEmail {userId : Nat} : Calm fun db => db.verifyEmail userId :=
  fun _ => ⟨rfl, rfl⟩

theorem calm_setPassword {userId : Nat} {hash : String} :
    Calm fun db => db.setPassword userId hash := fun _ => ⟨rfl, rfl⟩

theorem calm_revokeSessions {ids : List String} {revokedAt : Nat} {reason : SessionRevokedReason} :
    Calm fun db => db.revokeSessions ids revokedAt reason := fun _ => ⟨rfl, rfl⟩

theorem body_setEmailVerified {userId : Nat} : (setEmailVerified userId).Body :=
  Body.bind (fun _ => trivial) fun _ => Body.check

theorem writes_setEmailVerified {userId : Nat} :
    (setEmailVerified userId).Writes Calm fun _ => False :=
  Writes.bind (Writes.change fun _ => calm_verifyEmail) fun _ => Writes.check

/-- No statement so far has granted anything. -/
theorem ungranted {names : List (Statement × Database)} (h : names.all fun p => !grants p.1) :
    ¬ ∃ p ∈ names, grants p.1 = true := by
  rintro ⟨p, hp, hGrants⟩
  have hNot := List.all_eq_true.mp h p hp
  rw [hGrants] at hNot
  cases hNot

theorem held_select {db : Database} {p : AuthToken → Bool} {id : String}
    (h : id ∈ (db.authTokens.select p).map AuthToken.id) :
    Resource.authToken id ∈ (db.authTokens.select p).map fun t => Resource.authToken t.id := by
  obtain ⟨t, ht, hId⟩ := List.mem_map.mp h
  exact List.mem_map.mpr ⟨t, ht, by rw [hId]⟩

theorem wp_verifyEmail {token : String} (hCall : call = .verifyEmail token) :
    Wp (discipline services) call (verifyEmail services token) (fun _ _ _ => True)
      (.outside replies) s := by
  have hPresented : presentedHash services call = some (services.digest token) := by rw [hCall]; rfl
  unfold verifyEmail verifyInTransaction findAuthTokenWithUser
  refine Wp.transaction (fun _ _ _ _ => Wp.done safe_any fun _ _ => trivial) fun s₀ hRely₀ => ?_
  refine Wp.clock safe_any fun s₁ hRely₁ => ?_
  refine Wp.statement rfl safe_any fun s₂ v₂ hRely₂ _ hSees₂ _ => ?_
  have hDb₂ : v₂.db = s₂.db := hSees₂.db
  have hNothing {status : EmailVerificationStatus} : Wp (discipline services) call
    (.done (.ok status : Except Failure _))
      (fun a => Wp (discipline services) call (.commit (.done a)) fun _ _ _ => True)
      (((Local.outside replies).opened s₀.now transactionTimeoutMs).ran
        ⟨s₀.now, transactionTimeoutMs, id, [], []⟩ .findAuthToken
        (fun _ => []) (fun _ => id) v₂) s₂ := by
    refine Wp.done safe_any fun s' _ =>
      wp_commitCalm rfl (calm_id.comp calm_id) (.inr fun p hp => ?_)
    rw [List.mem_singleton.mp hp]
    rfl
  dsimp only [bind_done, bind_eq]
  split
  · exact hNothing
  next found user hFound =>
  obtain ⟨t, hFind, hPair⟩ := Option.map_eq_some_iff.mp hFound
  cases hPair
  rw [hDb₂] at hFind
  obtain ⟨hMem, hHash⟩ := found_of_find hFind
  split
  · -- an address that is verified already
    refine Wp.statement rfl safe_any fun s₃ v₃ hRely₃ _ hSees₃ _ => ?_
    refine Wp.done safe_any fun s₄ hRely₄ => ?_
    exact wp_commitConsume _ s₁.now rfl (consumes_after _ (calm_id.comp calm_id) rfl) (fun id hId =>
      .inr (held_select hId))
      fun _ _ _ _ hGranted => absurd hGranted (ungranted rfl)
  split
  · exact hNothing
  split
  · exact hNothing
  refine Wp.statement rfl safe_any fun s₃ v₃ hRely₃ _ hSees₃ _ => ?_
  have hDb₃ : v₃.db = s₃.db := hSees₃.db
  dsimp only [bind_done, bind_eq]
  split
  · refine Wp.statement rfl safe_any fun s₄ v₄ hRely₄ _ hSees₄ _ => ?_
    refine Wp.done safe_any fun s₅ hRely₅ => ?_
    exact wp_commitConsume _ s₁.now rfl
      (Consumes.calm (f := id) calm_id (consumes_after _ (calm_id.comp calm_id) rfl))
      (fun id hId => .inl (.inr (held_select hId))) fun _ _ _ _ hGranted =>
        absurd hGranted (ungranted rfl)
  next hOne =>
  obtain ⟨_, _, _, hIds⟩ :=
    select_consumable (fun t ht => (of_decide_eq_true ht).1) (not_not.mp hOne)
  refine wp_granting (Body.bind (Body.bind body_setEmailVerified fun _ => trivial) fun _ => trivial)
    (Writes.bind (Writes.bind writes_setEmailVerified fun _ => trivial) fun _ => trivial)
    (by rw [hCall]; rfl) rfl (consumes_after _ (calm_id.comp calm_id) hIds) ?_
  exact accepted_of_found hPresented hMem hHash hRely₃ (by rw [hDb₃])
    (fun t ht => ⟨(of_decide_eq_true ht).1, (of_decide_eq_true ht).2.1⟩) (not_not.mp hOne)

theorem body_setPassword {userId : Nat} {hash : String} : (setPassword userId hash).Body :=
  Body.bind (fun _ => trivial) fun _ => Body.check

theorem writes_setPassword {userId : Nat} {hash : String} :
    (setPassword userId hash).Writes Calm fun _ => False :=
  Writes.bind (Writes.change fun _ => calm_setPassword) fun _ => Writes.check

theorem writes_revokeSessions {name : Statement} {where_ : Session → Bool} {revokedAt : Nat}
    {reason : SessionRevokedReason} :
    (revokeSessions name where_ revokedAt reason).Writes Calm fun _ => False :=
  Writes.change fun _ => calm_revokeSessions

theorem wp_read {Q : α → Local auth → Shared auth AccountCall → Prop} {name : Statement}
    {next : View auth → Script auth α} (hGrants : grants name = false)
    (h : ∀ s' v, (discipline services).Rely (fun _ => False) s s' → v.db = s'.db → ∀ s'',
      (discipline services).Rely (fun _ => False) s' s'' →
      Wp (discipline services) call (next v) Q (.outside replies) s'') :
    Wp (discipline services) call (.sql name (fun _ => []) (fun _ => id) next) Q
      (.outside replies) s := by
  refine Wp.autocommit fun s' v hRely hSees _ _ => ?_
  have hGuarantee : (discipline services).Guarantee (· ∈ ([] : List Resource)) s'
      (s'.record (s'.entry call s'.now [(name, v.db)] [] replies none s'.db)) := by
    refine guarantee_calm hRely.inv rfl rfl (fun _ => rfl)
      (fun _ hClash => by cases hClash) rfl rfl fun tokenHash hSpends => ?_
    obtain ⟨p, hp, hGranted⟩ := hSpends.granted
    rw [List.mem_singleton.mp hp] at hGranted
    cases hGranted.symm.trans hGrants
  exact ⟨hGuarantee, fun _ _ =>
    trivial, h s' v hRely hSees.db _ (hGuarantee.rely_outside hRely.inv)⟩

theorem wp_resetPassword {token passwordHash : String}
    (hCall : call = .resetPassword token passwordHash) :
    Wp (discipline services) call (resetPassword services token passwordHash) (fun _ _ _ => True)
      (.outside replies) s := by
  have hPresented : presentedHash services call = some (services.digest token) := by rw [hCall]; rfl
  unfold resetPassword findAuthToken
  refine wp_read rfl fun s₁ v₁ _ _ s₂ _ => ?_
  refine Wp.clock safe_any fun s₃ hRely₃ => ?_
  dsimp only [bind_done, bind_eq]
  split
  · exact Wp.done safe_any fun _ _ => trivial
  refine Wp.transaction (fun _ _ _ _ => Wp.done safe_any fun _ _ => trivial) fun s₄ hRely₄ => ?_
  refine Wp.clock safe_any fun s₅ hRely₅ => ?_
  refine Wp.statement rfl safe_any fun s₆ v₆ hRely₆ _ hSees₆ _ => ?_
  have hDb₆ : v₆.db = s₆.db := hSees₆.db
  dsimp only [bind_done, bind_eq]
  split
  · refine Wp.done safe_any fun s' _ =>
      wp_commitCalm rfl (calm_id.comp calm_id) (.inr fun p hp => ?_)
    rw [List.mem_singleton.mp hp]
    rfl
  next current hCurrent =>
  have hFind : (s₆.db.authTokens.rows.find? fun t => t.tokenHash = services.digest token ∧
    t.type = .passwordReset) = some current := by
    rw [hDb₆] at hCurrent
    unfold classifyResetToken at hCurrent
    split at hCurrent
    · cases hCurrent
    · next found hFound =>
      split at hCurrent
      · cases hCurrent
      · split at hCurrent
        · cases hCurrent
        · cases hCurrent
          exact hFound
  obtain ⟨hMem, hHash⟩ := found_of_find hFind
  refine Wp.statement rfl safe_any fun s₇ v₇ hRely₇ _ hSees₇ _ => ?_
  have hDb₇ : v₇.db = s₇.db := hSees₇.db
  dsimp only [bind_done, bind_eq]
  split
  · refine Wp.done safe_any fun s' hRely' => ?_
    exact wp_commitConsume _ s₅.now rfl (consumes_after _ (calm_id.comp calm_id) rfl) (fun id hId =>
      .inr (held_select hId))
      fun _ _ _ _ hGranted => absurd hGranted (ungranted rfl)
  next hOne =>
  obtain ⟨_, _, _, hIds⟩ :=
    select_consumable (fun t ht => (of_decide_eq_true ht).1) (not_not.mp hOne)
  refine wp_granting (Body.bind body_setPassword fun _ =>
    Body.bind (fun _ => trivial) fun _ => trivial)
    (Writes.bind writes_setPassword fun _ => Writes.bind writes_revokeSessions fun _ => trivial)
    (by rw [hCall]; rfl) rfl (consumes_after _ (calm_id.comp calm_id) hIds) ?_
  exact accepted_of_found hPresented hMem hHash hRely₇ (by rw [hDb₇])
    (fun t ht => ⟨(of_decide_eq_true ht).1, (of_decide_eq_true ht).2.1⟩) (not_not.mp hOne)

/-! ## Issuing a token -/

/-- The new row is in, the older ones of its kind are consumed, and nobody else can issue one. -/
structure Issued (new : AuthToken) (ids : List String) (now : Nat) (l : Local auth)
    (s : Shared auth AccountCall) : Prop where
  tx : ∃ tx, l.tx = some tx ∧ ∀ db, (tx.pending db).authTokens =
    ((db.consumeAuthTokens ids now).insertAuthToken new).authTokens ∧
    (tx.pending db).issuedAuthTokens = issuedKey new :: db.issuedAuthTokens
  kind : l.held (.tokenIssue new.userId new.type)
  id : l.held (.authToken new.id)
  hash : l.held (.authTokenHash new.tokenHash)
  older : ∀ id ∈ ids, l.held (.authToken id)
  active : ∀ t ∈ s.db.authTokens.rows, t.activeFor new.userId new.type = true → t.id ∈ ids
  unused : ∀ p ∈ s.db.issuedAuthTokens, p.1 ≠ new.id ∧ p.2 ≠ new.tokenHash

theorem Issued.later {new : AuthToken} {ids : List String} {now : Nat} {l : Local auth}
    {s' : Shared auth AccountCall} (h : Issued new ids now l s)
    (hRely : (discipline services).Rely l.held s s') : Issued new ids now l s' :=
  { h with
    active := rely_active hRely h.kind h.active
    unused := rely_unused hRely h.id h.hash h.unused }

theorem mem_issued {db : Database} {new : AuthToken} {ids : List String} {now : Nat}
    (hNew : db.authTokens.get new.id = none) {t' : AuthToken} :
    t' ∈ ((db.consumeAuthTokens ids now).insertAuthToken new).authTokens.rows ↔
      t' = new ∨ ∃ t ∈ db.authTokens.rows, (if t.id ∈ ids then t.consume now else t) = t' := by
  have hNone : (db.consumeAuthTokens ids now).authTokens.get new.id = none := by
    rw [Database.consumeAuthTokens, Table.get_modify, hNew, Option.map_none]
  rw [Database.insertAuthToken, Table.rows_insert hNone, List.mem_append, List.mem_singleton,
    mem_consumed, or_comm]

theorem wp_commitIssue {a : α} {new : AuthToken} {ids : List String} {now : Nat} {l : Local auth}
    (hOpen : new.consumedAt = none) (hPresented : presentedHash services call = none)
    (h : Issued new ids now l s) :
    Wp (discipline services) call (.commit (.done a)) (fun _ _ _ => True) l s := by
  obtain ⟨tx, hTx, hPending⟩ := h.tx
  refine Wp.commit hTx safe_any fun s' hRely _ _ =>
    ⟨?_, fun _ _ => trivial, Wp.done safe_any fun _ _ => trivial⟩
  obtain ⟨hTokens, hIssued⟩ := hPending s'.db
  have hHere := h.later hRely
  have hNew : s'.db.authTokens.get new.id = none := Table.get_eq_none_iff.mpr fun t ht hId =>
    (hHere.unused _ ((Sound.consistent hRely.inv).remembered t ht)).1 hId
  have hRows {t' : AuthToken} (ht' : t' ∈ (tx.pending s'.db).authTokens.rows) :
      t' = new ∨ ∃ t ∈ s'.db.authTokens.rows, (if t.id ∈ ids then t.consume now else t) = t' :=
        (mem_issued hNew).mp (hTokens ▸ ht')
  refine guarantee_does (some new) hRely.inv rfl rfl ?_ fun r hr => ?_
  · exact {
      kept := fun hError => absurd rfl hError
      unclashed := fun _ hClash => by cases hClash
      issued := hIssued
      rows := fun t' ht' => by
        rcases hRows ht' with rfl | ⟨t, ht, rfl⟩
        · exact .inl rfl
        · exact .inr ⟨t, ht, ages_of_consume _ _ _⟩
      fresh := fun t hInserted => by
        cases hInserted
        exact hHere.unused
      alone := fun t hInserted t' ht' hActive => by
        cases hInserted
        rcases hRows ht' with rfl | ⟨t₀, ht₀, rfl⟩
        · rfl
        · obtain ⟨hUser, hType, hUnconsumed⟩ := activeFor_iff.mp hActive
          have hSame := (ages_of_consume ids now t₀).eq_of_unconsumed hUnconsumed
          rw [hSame] at hActive hUnconsumed
          have hMem := hHere.active t₀ ht₀ hActive
          rw [if_pos hMem] at hSame
          rw [← hSame] at hUnconsumed
          cases hUnconsumed
      spent := fun tokenHash hSpends => by cases hPresented.symm.trans hSpends.presented }
  · cases r with
    | authToken id =>
      have hApart : id ∉ ids := fun hMem => hr (h.older id hMem)
      have hOther : new.id ≠ id := fun hSame => hr (hSame ▸ h.id)
      refine ⟨fun t hGet => ?_, fun hNone p hp => ?_⟩
      · show (tx.pending s'.db).authTokens.get id = some t
        rw [hTokens, Database.insertAuthToken, Table.get_insert, Database.consumeAuthTokens,
          Table.get_modify_of_not_mem hApart, show s'.db.authTokens.get id = some t from hGet,
          Option.some_or]
      · rcases List.mem_cons.mp (hIssued ▸ hp) with rfl | hOld
        · exact hOther
        · exact hNone p hOld
    | authTokenHash tokenHash =>
      have hOther : new.tokenHash ≠ tokenHash := fun hSame => hr (hSame ▸ h.hash)
      intro hNone p hp
      rcases List.mem_cons.mp (hIssued ▸ hp) with rfl | hOld
      · exact hOther
      · exact hNone p hOld
    | tokenIssue userId type =>
      intro t' ht' hActive
      obtain ⟨hUser, hType, hUnconsumed⟩ := activeFor_iff.mp hActive
      rcases hRows ht' with rfl | ⟨t, ht, hEq⟩
      · exact absurd (hUser ▸ hType ▸ h.kind) hr
      · have hSame : t' = t :=
          (hEq ▸ ages_of_consume _ _ _ : Ages t t').eq_of_unconsumed hUnconsumed
        exact hSame ▸ ht
    | _ => trivial

theorem clash_ne_active {db db' : Database} {new : AuthToken} {ids : List String} {now : Nat}
    {index : String} (hTokens : db'.authTokens = (db.consumeAuthTokens ids now).authTokens)
    (hActive : ∀ t ∈ db.authTokens.rows, t.activeFor new.userId new.type = true → t.id ∈ ids)
    (h : db'.authTokenClash new = some index) : index ≠ oneActivePerUserType := by
  unfold Database.authTokenClash at h
  split at h
  · cases h
    decide
  · split at h
    · next hAny =>
      obtain ⟨t', ht', hActive'⟩ := List.any_eq_true.mp hAny
      rw [hTokens] at ht'
      obtain ⟨t, ht, rfl⟩ := mem_consumed.mp ht'
      have hSame := (ages_of_consume ids now t).eq_of_unconsumed (activeFor_iff.mp hActive').2.2
      rw [hSame] at hActive'
      have hMem := hActive t ht hActive'
      rw [if_pos hMem] at hSame
      have hUnconsumed := (activeFor_iff.mp hActive').2.2
      rw [← hSame] at hUnconsumed
      cases hUnconsumed
    · cases h

theorem unused_of_no_clash {db : Database} {new : AuthToken} (h : db.authTokenClash new = none) :
    ∀ p ∈ db.issuedAuthTokens, p.1 ≠ new.id ∧ p.2 ≠ new.tokenHash := by
  unfold Database.authTokenClash at h
  split at h
  · cases h
  next hNone =>
  rw [not_or, List.any_eq_true] at hNone
  intro p hp
  refine ⟨fun hId => hNone.1 ⟨p, hp, decide_eq_true (.inl hId)⟩,
    fun hHash => hNone.1 ⟨p, hp, decide_eq_true (.inr hHash)⟩⟩

theorem authTokens_insert {db db' : Database} {new : AuthToken}
    (h : db.authTokens = db'.authTokens) :
    (db.insertAuthToken new).authTokens = (db'.insertAuthToken new).authTokens := by
  rw [Database.insertAuthToken, Database.insertAuthToken, h]

theorem wp_issueInTransaction {userId : Nat} {type : AuthTokenType} {drawn : DrawnAuthToken}
    {l : Local auth} {tx : LocalTx auth} (hTx : l.tx = some tx) (hPending : Calm tx.pending) :
    Wp (discipline services) call (issueInTransaction services userId type drawn)
      (fun _ l' s' => ∃ new ids now, new.consumedAt = none ∧ Issued new ids now l' s') l s := by
  unfold issueInTransaction consumeAuthTokens createAuthToken
  refine Wp.clock safe_any fun s₁ hRely₁ => ?_
  refine Wp.statement hTx safe_any fun s₂ v₂ hRely₂ _ hSees₂ _ => ?_
  refine Wp.statement rfl safe_any fun s₃ v₃ hRely₃ _ hSees₃ _ => ?_
  have hTokens₃ : v₃.db.authTokens = s₃.db.authTokens := by
    rw [hSees₃.db]
    exact (hPending s₃.db).1
  refine Wp.statement rfl safe_any fun s₄ v₄ hRely₄ _ hSees₄ _ => ?_
  dsimp only [bind_done, bind_eq]
  have hActive : ∀ t ∈ s₄.db.authTokens.rows, t.activeFor userId type = true →
      t.id ∈ (v₃.db.authTokens.select (AuthToken.activeFor userId type)).map AuthToken.id := by
    refine rely_active hRely₄ (.inl (.inr List.mem_cons_self)) fun t ht hActive => ?_
    rw [hTokens₃]
    exact List.mem_map_of_mem (Table.mem_select.mpr ⟨ht, hActive⟩)
  have hConsumes := consumes_after s₁.now hPending
    (rfl : (v₃.db.authTokens.select (AuthToken.activeFor userId type)).map AuthToken.id = _)
  obtain ⟨hTokens₄, hIssued₄⟩ := hConsumes s₄.db
  have hDb₄ : v₄.db = ((fun db : Database => db.consumeAuthTokens
      ((v₃.db.authTokens.select (AuthToken.activeFor userId type)).map AuthToken.id) s₁.now) ∘
        tx.pending) s₄.db := hSees₄.db
  rw [← hDb₄] at hTokens₄ hIssued₄
  split
  swap
  · next index hClash =>
    exact wp_failAny fun _ hSame =>
      clash_ne_active hTokens₄ hActive hClash (Failure.uniqueConstraint.inj hSame)
  next hFree =>
  refine Wp.done safe_any fun s₅ hRely₅ =>
    ⟨⟨drawn.id, userId, type, services.digest drawn.token, s₁.now + tokenTtlMs type, none⟩,
    (v₃.db.authTokens.select (AuthToken.activeFor userId type)).map AuthToken.id, s₁.now, rfl,
      Issued.later ?_ hRely₅⟩
  have hUnused := unused_of_no_clash hFree
  rw [hIssued₄] at hUnused
  exact {
    tx := by
      refine ⟨_, rfl, fun db => ?_⟩
      obtain ⟨hTokens, hIssued⟩ := hConsumes db
      dsimp only [Function.comp_apply] at hTokens hIssued ⊢
      rw [if_pos hFree]
      exact ⟨authTokens_insert hTokens, congrArg (List.cons _) hIssued⟩
    kind := .inl (.inl (.inr List.mem_cons_self))
    id := .inr List.mem_cons_self
    hash := .inr (List.mem_cons_of_mem _ List.mem_cons_self)
    older := fun id hId => .inl (.inr (held_select hId))
    active := hActive
    unused := hUnused }

theorem wp_issue {userId : Nat} {type : AuthTokenType} {drawn : DrawnAuthToken} {l : Local auth}
    {tx : LocalTx auth} {result : String → α} (hPresented : presentedHash services call = none)
    (hTx : l.tx = some tx) (hPending : Calm tx.pending) (hSound : (ledger services).Sound s) :
    Wp (discipline services) call ((issueInTransaction services userId type drawn).bind fun token =>
      .done (result token))
      (fun a => Wp (discipline services) call (.commit (.done a)) fun _ _ _ => True) l s := by
  refine Wp.bind hSound ((wp_issueInTransaction hTx hPending).mono fun _ l' s' _ h => ?_)
  obtain ⟨new, ids, now, hOpen, hIssued⟩ := h
  exact Wp.done safe_any fun s'' hRely => wp_commitIssue hOpen hPresented (hIssued.later hRely)

theorem wp_requestPasswordReset {email : String} {drawn : DrawnAuthToken}
    (hPresented : presentedHash services call = none) :
    Wp (discipline services) call (requestPasswordReset services email drawn) (fun _ _ _ => True)
      (.outside replies) s := by
  unfold requestPasswordReset
  refine wp_read rfl fun s₁ v₁ _ _ s₂ hRely₂ => ?_
  dsimp only [bind_done, bind_eq]
  split
  · split
    · refine Wp.bind hRely₂.inv (Wp.mono (Q := fun _ _ _ => True) ?_ fun _ _ _ _ _ =>
        Wp.done safe_any fun _ _ => trivial)
      refine Wp.transaction (fun _ _ _ _ => Wp.done safe_any fun _ _ => trivial) fun s₃ hRely₃ => ?_
      refine wp_issue hPresented rfl ?_ hRely₃.inv
      exact calm_id
    · exact Wp.done safe_any fun _ _ => trivial
  · exact Wp.done safe_any fun _ _ => trivial

theorem wp_resendEmailVerification {email : String} {drawn : DrawnAuthToken}
    (hPresented : presentedHash services call = none) :
    Wp (discipline services) call (resendEmailVerification services email drawn) (fun _ _ _ => True)
      (.outside replies) s := by
  unfold resendEmailVerification
  refine wp_read rfl fun s₁ v₁ _ _ s₂ hRely₂ => ?_
  dsimp only [bind_done, bind_eq]
  split
  · split
    · exact Wp.done safe_any fun _ _ => trivial
    · refine Wp.transaction (fun _ _ _ _ => Wp.done safe_any fun _ _ => trivial) fun s₃ hRely₃ => ?_
      refine wp_issue hPresented rfl ?_ hRely₃.inv
      exact calm_id
  · exact Wp.done safe_any fun _ _ => trivial

theorem calm_createUser {new : User} {v : View auth} :
    Calm fun db => if v.db.userClash new = none then db.insertUser new else db := by
  intro db
  dsimp only
  split <;> exact ⟨rfl, rfl⟩

theorem wp_register {input : RegisterInput} {passwordHash : String} {user : DrawnUser}
    {drawn : DrawnAuthToken} (hPresented : presentedHash services call = none) :
    Wp (discipline services) call (register services input passwordHash user drawn)
      (fun _ _ _ => True) (.outside replies) s := by
  unfold register
  dsimp only
  split
  · exact Wp.done safe_any fun _ _ => trivial
  refine wp_read rfl fun s₁ v₁ _ _ s₂ hRely₂ => ?_
  dsimp only [bind_done, bind_eq]
  split
  · exact Wp.done safe_any fun _ _ => trivial
  refine Wp.transaction (fun error _ _ _ => ?_) fun s₃ hRely₃ => ?_
  · split <;> exact Wp.done safe_any fun _ _ => trivial
  unfold createUser
  refine Wp.statement rfl safe_any fun s₄ v₄ hRely₄ _ _ _ => ?_
  dsimp only [bind_done, bind_eq]
  split
  swap
  · next error hClash =>
    refine wp_failAny fun _ hSame => ?_
    subst hSame
    unfold Database.userClash at hClash
    split at hClash
    · cases hClash
    · split at hClash
      · exact absurd hClash (by decide)
      · cases hClash
  · exact wp_issue hPresented rfl (Calm.comp calm_createUser calm_id) hRely₄.inv

/-! ## Clean-up -/

theorem wp_deleteExpiredData (hPresented : presentedHash services call = none) :
    Wp (discipline services) call deleteExpiredData (fun _ _ _ => True) (.outside replies) s := by
  have hUnspent (e : AccountEntry) (hCall : e.call = call)
    (tokenHash : String) : ¬ Spends services e tokenHash := by
    intro hSpends
    rw [← hCall] at hPresented
    cases hPresented.symm.trans hSpends.presented
  unfold deleteExpiredData
  refine Wp.clock safe_any fun s₁ _ => ?_
  dsimp only [bind_done, bind_eq]
  refine Wp.autocommit fun s₂ v₂ hRely₂ hSees₂ _ _ => ⟨?_, fun _ _ => trivial, ?_⟩
  · refine guarantee_does none hRely₂.inv rfl rfl ?_ fun r hr => ?_
    · exact {
        kept := fun hError => absurd rfl hError
        unclashed := fun _ hClash => by cases hClash
        issued := rfl
        rows := fun t ht => .inr ⟨t, List.mem_of_mem_filter ht, .inl rfl⟩
        fresh := fun t ht => by cases ht
        alone := fun t ht => by cases ht
        spent := fun tokenHash hSpends => absurd hSpends (hUnspent _ rfl tokenHash) }
    · cases r with
      | authToken id =>
        refine ⟨fun t hGet => ?_, fun hNone => hNone⟩
        show ((s₂.db.deleteAuthTokens _).authTokens).get id = some t
        rw [Database.deleteAuthTokens, Table.get_delete,
          show s₂.db.authTokens.get id = some t from hGet]
        refine Option.filter_eq_some_iff.mpr ⟨rfl, ?_⟩
        have hApart : id ∉ (v₂.db.authTokens.select _).map AuthToken.id :=
          fun hMem => hr (held_select hMem)
        rw [Table.key_of_get hGet, Bool.not_eq_true', decide_eq_false_iff_not]
        exact hApart
      | authTokenHash tokenHash => exact fun hNone => hNone
      | tokenIssue userId type => exact fun t ht _ => List.mem_of_mem_filter ht
      | _ => trivial
  · refine Wp.autocommit fun s₃ v₃ hRely₃ _ _ _ =>
      ⟨?_, fun _ _ => trivial, Wp.done safe_any fun _ _ => trivial⟩
    exact guarantee_calm hRely₃.inv rfl rfl (fun hError => absurd rfl hError)
      (fun _ hClash => by cases hClash) rfl rfl
      (hUnspent _ rfl)

end Pixaeron.Auth.OneTime
