import Pixaeron.Auth.Runs

/-! # The password behind a session

A sign-in compares the password with the hash that it has read, and only later puts in a session.
What it has compared is told here from the run alone; the rows remember it, too.
-/

namespace Pixaeron.Auth

open Transactions Transactions.Script

variable {services : Services} {genesis : Genesis} {now₀ : Nat} {w w' : World auth Call Outcome}
  {sid : Nat} {hash : String}

/-- A sign-in is about to read its user, and the password that it was given is the one of `hash`. -/
def Verifies (services : Services) (w : World auth Call Outcome) (sid : Nat)
    (hash : String) : Prop :=
  ∃ email password metadata drawn rememberMe u,
    w.sessions sid = some ⟨.login email password metadata drawn rememberMe,
      scriptOf services (.login email password metadata drawn rememberMe), none, []⟩ ∧
    w.shared.db.userByEmail (services.normalizeEmail email) = some u ∧ u.password = some hash ∧
    services.verifyPassword password (some hash) = true

/-- A step of this call puts in the session. -/
structure PutsIn (services : Services) (sid : Nat) (id : String)
    (w w' : World auth Call Outcome) : Prop where
  step : World.step (system services) w (.run sid) = some w'
  before : w.shared.db.sessions.get id = none
  after : w'.shared.db.sessions.get id ≠ none

/-- On the way to `w`, a sign-in verified the hash and put in the session afterwards. -/
def SignedInWith (services : Services) (genesis : Genesis) (now₀ : Nat)
    (w : World auth Call Outcome) (id hash : String) : Prop :=
  ∃ sid w₁ w₂ w₃ w₄, World.Leads (system services) (start now₀ genesis) w₁ ∧
    Verifies services w₁ sid hash ∧
    World.step (system services) w₁ (.run sid) = some w₂ ∧ World.Stays (system services) sid w₂ w₃ ∧
    PutsIn services sid id w₃ w₄ ∧ World.Leads (system services) w₄ w

/-! ## What such a sign-in writes -/

/-- The observer loses nothing, and says of each new session that its sign-in verified `hash`. -/
structure Records (hash : String) (change : Database → Database) : Prop where
  keeps : ∀ db, db.signIns ⊆ (change db).signIns
  new : ∀ db id, db.sessions.get id = none → (change db).sessions.get id ≠ none →
    (id, hash) ∈ (change db).signIns

theorem records_of_same {change : Database → Database}
    (hSessions : ∀ db, (change db).sessions = db.sessions)
    (hSignIns : ∀ db, (change db).signIns = db.signIns) : Records hash change where
  keeps db := by
    rw [hSignIns]
    exact List.Subset.refl _
  new db id hNone hSome := absurd (by rw [hSessions, hNone]) hSome

theorem records_id : Records hash id := records_of_same (fun _ => rfl) fun _ => rfl

theorem Records.comp {f g : Database → Database} (hf : Records hash f)
    (hg : Records hash g) : Records hash (f ∘ g) where
  keeps db := List.Subset.trans (hg.keeps db) (hf.keeps (g db))
  new db id hNone hSome := by
    by_cases hMiddle : (g db).sessions.get id = none
    · exact hf.new (g db) id hMiddle hSome
    · exact hf.keeps (g db) (hg.new db id hNone hMiddle)

theorem records_if {condition : Prop} [Decidable condition] {change : Database → Database}
    (h : Records hash change) :
    Records hash fun db => if condition then db else change db := by
  by_cases hCondition : condition
  · simp only [if_pos hCondition]
    exact records_id
  · simp only [if_neg hCondition]
    exact h

theorem records_insertSession {session : Session} :
    Records hash fun db => db.insertSession session (some hash) where
  keeps db := List.subset_append_right _ _
  new db id hNone hSome := by
    change (db.sessions.insert session).get id ≠ none at hSome
    rw [Table.get_insert, hNone, Option.none_or] at hSome
    have hId : session.id = id := by
      by_contra hOther
      exact hSome (if_neg hOther)
    exact hId ▸ List.mem_append_left _ (List.mem_singleton.mpr rfl)

theorem records_createSession {userId : Nat} {metadata : SessionRequestMetadata}
    {drawn : DrawnSession} {rememberMe : Bool} :
    (createSession services userId metadata drawn rememberMe (some hash)).Writes
      (Records hash) fun _ => False := by
  refine Writes.readClock.bind fun now =>
    Writes.transaction (Writes.bind ?_ fun _ => ?_) fun _ => trivial
  · exact Writes.bind (Writes.change fun _ => records_id) fun _ => Writes.check
  refine (Writes.query records_id).bind fun user => ?_
  cases user with
  | none => trivial
  | some user =>
    refine Writes.bind (Writes.bind (Writes.change fun _ => records_if records_insertSession)
      fun _ => Writes.check) fun _ => ?_
    refine Writes.bind (Writes.bind (Writes.change fun _ => records_if ?_) fun _ => Writes.check)
      fun _ => trivial
    exact records_of_same (fun _ => rfl) fun _ => rfl

/-- A sign-in starts with the read of its user. If the password is that user's, all that it writes
from then on is recorded. -/
theorem login_reads {email password : String} {metadata : SessionRequestMetadata}
    {drawn : DrawnSession} {rememberMe : Bool} {u : User} (hHash : u.password = some hash)
    (hVerified : services.verifyPassword password (some hash) = true) :
    ∃ name locks write next, scriptOf services (.login email password metadata drawn rememberMe) =
      .sql name locks write next ∧
      ∀ v : View auth, v.db.userByEmail (services.normalizeEmail email) = some u →
        (next v).Writes (Records hash) fun _ => False := by
  refine ⟨_, _, _, _, rfl, fun v hUser => ?_⟩
  dsimp only [bind_done, bind_eq, pure_eq]
  rw [hUser]
  dsimp only
  rw [hHash]
  dsimp only
  rw [if_pos hVerified]
  split
  · refine Writes.bind (records_createSession.bind fun result => ?_) fun result => trivial
    split <;> trivial
  · trivial

theorem conducts_of_verifies (h : Verifies services w sid hash)
    (hStep : World.step (system services) w (.run sid) = some w') :
    ∃ session, w'.sessions sid = some session ∧
      World.SessionConducts (Records hash) (fun _ _ => False) (fun _ _ => True) session := by
  obtain ⟨email, password, metadata, drawn, rememberMe, u, hSession, hUser, hHash, hVerified⟩ := h
  obtain ⟨name, locks, write, next, hScript, hWrites⟩ := login_reads hHash hVerified
  rw [hScript] at hSession
  simp only [World.step, hSession, Option.bind_some, World.runSession, World.autocommit] at hStep
  split at hStep <;> cases hStep
  refine ⟨_, Function.update_self _ _ _, ?_, fun tx hTx => by cases hTx⟩
  exact (hWrites _ hUser).conducts records_id (fun _ _ hf hg => hf.comp hg) fun _ hNo =>
    by cases hNo

theorem signIns_later (h : World.Leads (system services) (start now₀ genesis) w)
    (hLater : World.Leads (system services) w w') {id : String}
    (hMem : (id, hash) ∈ w.shared.db.signIns) : (id, hash) ∈ w'.shared.db.signIns := by
  refine (path_since (system_reaches h hLater)).preserves (P := fun (db : Database) _ =>
    (id, hash) ∈ db.signIns)
    (fun _ _ _ _ hSame => hSame) (fun e _ hSane hHere => ?_) hMem
  obtain ⟨effect, _, hAfter⟩ := hSane.1
  rw [hAfter, Effect.signIns_apply]
  cases effect with
  | start session token verified => exact List.mem_append_right _ hHere
  | _ => exact hHere

theorem SignedInWith.recorded {id : String} (h : SignedInWith services genesis now₀ w id hash) :
    (id, hash) ∈ w.shared.db.signIns := by
  obtain ⟨sid, w₁, w₂, w₃, w₄, h₁, hVerifies, hRead, hStays, ⟨hStep, hNone, hSome⟩, hLater⟩ := h
  obtain ⟨session, hSession, hConducts⟩ := conducts_of_verifies hVerifies hRead
  obtain ⟨session', hSession', hConducts'⟩ := hConducts.stays hSession hStays
  have h₃ : World.Leads (system services) (start now₀ genesis) w₃ :=
    (h₁.tail ⟨_, hRead⟩).trans hStays.leads
  refine signIns_later (h₃.tail ⟨_, hStep⟩) hLater ?_
  cases hConducts'.steps hSession' hStep rfl (fun hNo => by cases hNo) with
  | nothing _ hDb _ _ => exact absurd (hDb ▸ hNone) hSome
  | calm _ change hRecords hDb _ _ =>
    rw [hDb] at hSome ⊢
    exact hRecords.new _ _ hNone hSome
  | loud _ _ _ hNo => exact hNo.elim

end Pixaeron.Auth
