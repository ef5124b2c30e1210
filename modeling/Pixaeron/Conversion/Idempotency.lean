import Pixaeron.Transactions.Following
import Pixaeron.Conversion.Runs

/-! # Idempotent creation

A call of createBatch is over after its insert, or after the read that follows a conflict. What
it returns is in either case the one batch that its subject has under the key at that moment.
-/

namespace Pixaeron.Conversion

open Transactions Transactions.Script

variable {services : Services} {input : CreateBatchInput} {snapshot : EntitlementSnapshot}
  {drawn : Drawn}

/-- What a call does after a conflict. -/
def rereadBatch (services : Services) (input : CreateBatchInput) :
    Script conversion CreatedBatch := do
  let existing ← query .findByIdempotencyKey fun v =>
    (v.db.batches.rows.find? fun b => b.subject = input.subject ∧
      b.idempotencyKey = input.idempotencyKey).map
      fun b => (b, v.db.filesOf b.id)
  match existing with
  | none => .fail (.uniqueConstraint "ConversionBatch")
  | some (existing, files) =>
    assertOwnership services existing ⟨input.subject, input.batchToken⟩ .batchTokenMismatch
    require (existing.fileCount = input.fileCount ∧ existing.mode = input.mode ∧
      existing.strength = input.strength)
      (.admission .idempotencyConflict)
    pure ⟨existing, files, none, true⟩

/-- The rows a call inserts at time `now`, as it returns them. -/
def newlyCreated (services : Services) (input : CreateBatchInput) (snapshot : EntitlementSnapshot)
    (drawn : Drawn) (planCode : ConversionPlanCode) (now : Nat) : CreatedBatch where
  batch := newBatch services input snapshot planCode drawn now
  files := drawn.fileIds.map fun fileId => newFile drawn.batchId fileId (now + uploadWindowMs)
  batchToken := if input.anonymous then some drawn.batchToken else none
  replayed := false

theorem createBatch_cases (services : Services) (input : CreateBatchInput)
    (snapshot : EntitlementSnapshot) (drawn : Drawn) :
    (∃ e, createBatch services input snapshot drawn = .fail e) ∨
    ∃ planCode write next, createBatch services input snapshot drawn =
      .sql .insertBatch (fun _ => []) write next ∧
      ∀ v : View conversion,
        (v.db.acceptsBatch input drawn = true ∧ v.db.acceptsFiles drawn = true ∧
          write v v.db =
            v.db.insertBatch (newlyCreated services input snapshot drawn planCode v.clock).batch
            (newlyCreated services input snapshot drawn planCode v.clock).files ∧
          next v = .done (newlyCreated services input snapshot drawn planCode v.clock)) ∨
        (write v v.db = v.db ∧ (next v = rereadBatch services input ∨
          v.db.acceptsBatch input drawn = true ∧
          next v = .fail (.uniqueConstraint "ConversionFile"))) := by
  unfold createBatch require
  split
  · unfold planCodeFor
    split
    · next planCode _ =>
      refine .inr ⟨planCode, _, _, rfl, fun v => ?_⟩
      by_cases hBatch : v.db.acceptsBatch input drawn = true
      · by_cases hFiles : v.db.acceptsFiles drawn = true
        · refine .inl ⟨hBatch, hFiles, ?_, ?_⟩
          · simp only [hBatch, hFiles, Bool.and_self, if_true]
            rfl
          · simp only [hBatch, hFiles, Bool.not_true, Bool.false_eq_true, if_false]
            rfl
        · refine .inr ⟨by simp [hFiles], .inr ⟨hBatch, ?_⟩⟩
          simp [hBatch, hFiles]
      · refine .inr ⟨by simp [hBatch], .inl ?_⟩
        simp only [hBatch, Bool.not_false, if_true, bind_done]
        rfl
    · exact .inl ⟨_, rfl⟩
  · exact .inl ⟨_, rfl⟩

/-- The token that a caller presents is the one of the batch, if the batch has one. -/
def Presents (services : Services) (batchToken : Option String) (batch : ConversionBatch) : Prop :=
  ∀ hash, batch.batchTokenHash = some hash → hash ≠ "" →
    ∃ token, batchToken = some token ∧ token ≠ "" ∧ services.digest token = hash

theorem assertOwnership_cases (services : Services) {batch : ConversionBatch}
    {ownership : BatchOwnership} (mismatchCode : AdmissionErrorCode)
    (hSubject : batch.subject = ownership.subject) :
    (assertOwnership services batch ownership mismatchCode = .done () ∧
      Presents services ownership.batchToken batch) ∨
      assertOwnership services batch ownership mismatchCode = .fail (.admission mismatchCode) := by
  unfold assertOwnership require Presents
  simp only [hSubject, if_true, bind_eq, bind_done, pure_eq]
  split
  · next hNone => exact .inl ⟨rfl, fun hash hHash => by cases hNone.symm.trans hHash⟩
  · next hEmpty =>
    refine .inl ⟨rfl, fun hash hHash hNonempty => ?_⟩
    exact absurd (Option.some.inj (hHash.symm.trans hEmpty)) hNonempty
  next expected _ hExpected =>
  split
  · exact .inr rfl
  · exact .inr rfl
  next presented hToken hPresented =>
  split
  · next hDigest =>
    refine .inl ⟨rfl, fun hash hHash _ => ⟨presented, hPresented, hToken, ?_⟩⟩
    rw [hDigest, Option.some.inj (hExpected.symm.trans hHash)]
  · exact .inr rfl

/-- The arguments that a batch must have been created with to be returned again. -/
def SameArguments (batch : ConversionBatch) (input : CreateBatchInput) : Prop :=
  batch.fileCount = input.fileCount ∧ batch.mode = input.mode ∧ batch.strength = input.strength

/-- The batch that the subject of a call has under the key of the call. -/
structure Under (input : CreateBatchInput) (db : Database) (batch : ConversionBatch) : Prop where
  row : batch ∈ db.batches.rows
  subject : batch.subject = input.subject
  idempotencyKey : batch.idempotencyKey = input.idempotencyKey

def inserting (services : Services) (input : CreateBatchInput) (snapshot : EntitlementSnapshot)
    (drawn : Drawn) :
    Script conversion Outcome :=
  (createBatch services input snapshot drawn).bind fun c => .done (.created c)

def rereading (services : Services) (input : CreateBatchInput) : Script conversion Outcome :=
  (rereadBatch services input).bind fun c => .done (.created c)

/-- What a call is at, from its start to its end. -/
inductive CreateStage (services : Services) (input : CreateBatchInput)
    (snapshot : EntitlementSnapshot) (drawn : Drawn) :
    Script conversion Outcome → Prop
  | inserting : CreateStage services input snapshot drawn (inserting services input snapshot drawn)
  | rereading : CreateStage services input snapshot drawn (rereading services input)
  | returned (c : CreatedBatch) : CreateStage services input snapshot drawn (.done (.created c))
  | refused (e : Failure) : CreateStage services input snapshot drawn (.fail e)

/-- How the insert changes the rows `db`, and what is left of the call after it. -/
inductive InsertStep (services : Services) (input : CreateBatchInput)
    (snapshot : EntitlementSnapshot) (drawn : Drawn) (db : Database) (now : Nat) :
    Database → Script conversion Outcome → Prop
  | created {planCode : ConversionPlanCode} {c : CreatedBatch} : c =
      newlyCreated services input snapshot drawn planCode now →
    db.acceptsBatch input drawn = true → db.acceptsFiles drawn = true →
    InsertStep services input snapshot drawn db now (db.insertBatch c.batch c.files)
      (.done (.created c))
  | duplicate : InsertStep services input snapshot drawn db now db (rereading services input)
  | refused {modelName : String} : (∀ b, ¬ Under input db b) →
    InsertStep services input snapshot drawn db now db (.fail (.uniqueConstraint modelName))

/-- What the read after a conflict makes of the rows. -/
inductive RereadStep (services : Services) (input : CreateBatchInput) (db : Database) :
    Script conversion Outcome → Prop
  | replayed {b : ConversionBatch} : Under input db b → Presents services input.batchToken b →
      SameArguments b input →
    RereadStep services input db (.done (.created ⟨b, db.filesOf b.id, none, true⟩))
  | mismatch {b : ConversionBatch} {code : AdmissionErrorCode} : Under input db b →
    code = .idempotencyConflict ∨ code = .batchTokenMismatch →
      RereadStep services input db (.fail (.admission code))
  | gone : (∀ b, ¬ Under input db b) →
      RereadStep services input db (.fail (.uniqueConstraint "ConversionBatch"))

section Step

variable {w w' : World conversion Call Outcome} {sid : Nat}
  {session : Session conversion Call Outcome}
  {script : Script conversion Outcome}

theorem run_unlocked {name : Statement} {write : View conversion → Database → Database}
    {next : View conversion → Script conversion Outcome} (hSession : w.sessions sid = some session)
    (hTx : session.tx = none) (hScript : session.script = .sql name (fun _ => []) write next)
    (hStep : World.step (system services) w (.run sid) = some w') :
    ∃ v : View conversion, v.db = w.shared.db ∧ v.clock = w.shared.now ∧
      w'.shared.db = write v v.db ∧
      w'.sessions sid = some { session with script := next v } := by
  simp only [World.step, hSession, Option.bind_some, World.runSession, hTx, hScript,
    World.autocommit, List.all_nil, if_true, Option.some.injEq] at hStep
  subst hStep
  refine ⟨w.view sid w.shared.db w.shared.now, rfl, rfl, rfl, ?_⟩
  rw [hTx]
  exact Function.update_self _ _ _

theorem not_under {db : Database} (h : db.acceptsBatch input drawn = true)
    (b : ConversionBatch) : ¬ Under input db b := by
  intro hUnder
  simp only [Database.acceptsBatch, Bool.and_eq_true, List.all_eq_true, decide_eq_true_eq] at h
  exact h.2 b hUnder.row ⟨hUnder.subject, hUnder.idempotencyKey⟩

theorem step_rereading (hSession : w.sessions sid = some session) (hTx : session.tx = none)
    (hScript : session.script = rereading services input)
    (hStep : World.step (system services) w (.run sid) = some w') : w'.shared.db = w.shared.db ∧
      ∃ script, w'.sessions sid = some { session with script } ∧
        RereadStep services input w.shared.db script := by
  obtain ⟨v, hDb, _, hAfter, hNext⟩ := run_unlocked hSession hTx hScript hStep
  refine ⟨hAfter.trans hDb, _, hNext, ?_⟩
  rw [← hDb]
  dsimp only [bind_done]
  cases hFound : v.db.batches.rows.find? fun b =>
    b.subject = input.subject ∧ b.idempotencyKey = input.idempotencyKey with
  | none =>
    refine .gone fun b hUnder => ?_
    have hOther := List.find?_eq_none.mp hFound b hUnder.row
    simp [hUnder.subject, hUnder.idempotencyKey] at hOther
  | some b =>
    have hBoth := List.find?_some hFound
    simp only [decide_eq_true_eq] at hBoth
    have hUnder : Under input v.db b := ⟨List.mem_of_find?_eq_some hFound, hBoth.1, hBoth.2⟩
    dsimp only [Option.map_some]
    have hOwner : b.subject = (⟨input.subject, input.batchToken⟩ : BatchOwnership).subject :=
      hBoth.1
    rcases assertOwnership_cases services .batchTokenMismatch hOwner with ⟨hDone, hPresents⟩ | hFail
    · simp only [bind_eq, hDone, bind_done]
      by_cases hSame : SameArguments b input
      · have hRequire : require (b.fileCount = input.fileCount ∧ b.mode = input.mode ∧
          b.strength = input.strength)
          (.admission .idempotencyConflict) = .done () := if_pos hSame
        rw [hRequire]
        exact .replayed hUnder hPresents hSame
      · have hRequire : require (b.fileCount = input.fileCount ∧ b.mode = input.mode ∧
          b.strength = input.strength)
          (.admission .idempotencyConflict) = .fail (.admission .idempotencyConflict) :=
            if_neg hSame
        rw [hRequire]
        exact .mismatch hUnder (.inl rfl)
    · simp only [bind_eq, hFail]
      exact .mismatch hUnder (.inr rfl)

theorem step_inserting (hSession : w.sessions sid = some session) (hTx : session.tx = none)
    (hScript : session.script = inserting services input snapshot drawn)
    (hStep : World.step (system services) w (.run sid) = some w') : ∃ script,
      w'.sessions sid = some { session with script } ∧
      InsertStep services input snapshot drawn w.shared.db w.shared.now w'.shared.db script := by
  unfold inserting at hScript
  rcases createBatch_cases services input snapshot drawn with
    ⟨e, hFail⟩ | ⟨planCode, write, next, hInsert, hCases⟩
  · rw [hFail] at hScript
    simp [World.step, hSession, World.runSession, hTx, hScript, Script.bind] at hStep
  · rw [hInsert] at hScript
    obtain ⟨v, hDb, hNow, hAfter, hNext⟩ := run_unlocked hSession hTx hScript hStep
    refine ⟨_, hNext, ?_⟩
    rw [hAfter, ← hDb, ← hNow]
    rcases hCases v with ⟨hBatch, hFiles, hWrite, hDone⟩ | ⟨hWrite, hRest⟩
    · rw [hWrite, hDone]
      exact .created rfl hBatch hFiles
    · rw [hWrite]
      rcases hRest with hReread | ⟨hBatch, hError⟩
      · rw [hReread]
        exact .duplicate
      · rw [hError]
        exact .refused (not_under hBatch)

/-- What is known of a session that serves createBatch. -/
structure CreateSession (services : Services) (input : CreateBatchInput)
    (snapshot : EntitlementSnapshot) (drawn : Drawn)
    (session : Session conversion Call Outcome) : Prop where
  call : session.call = .createBatch input snapshot drawn
  tx : session.tx = none
  stage : CreateStage services input snapshot drawn session.script

theorem inserting_cases (services : Services) (input : CreateBatchInput)
    (snapshot : EntitlementSnapshot) (drawn : Drawn) :
    (∃ e, inserting services input snapshot drawn = .fail e) ∨
    ∃ write next, inserting services input snapshot drawn =
      .sql .insertBatch (fun _ => []) write next := by
  unfold inserting
  rcases createBatch_cases services input snapshot drawn with
    ⟨e, hFail⟩ | ⟨planCode, write, next, hInsert, _⟩
  · rw [hFail]
    exact .inl ⟨e, rfl⟩
  · rw [hInsert]
    exact .inr ⟨_, _, rfl⟩

theorem CreateSession.step (h : CreateSession services input snapshot drawn session)
    (hSession : w.sessions sid = some session)
    (hStep : World.step (system services) w (.run sid) = some w') :
    ∃ script, w'.sessions sid = some { session with script } ∧
      (session.script = inserting services input snapshot drawn ∧
          InsertStep services input snapshot drawn w.shared.db w.shared.now w'.shared.db script ∨
        session.script = rereading services input ∧ w'.shared.db = w.shared.db ∧
          RereadStep services input w.shared.db script) := by
  generalize hScript : session.script = script
  have hStage := h.stage
  rw [hScript] at hStage
  cases hStage with
  | inserting =>
    obtain ⟨next, hNext, hDone⟩ := step_inserting hSession h.tx hScript hStep
    exact ⟨next, hNext, .inl ⟨rfl, hDone⟩⟩
  | rereading =>
    obtain ⟨hSame, next, hNext, hDone⟩ := step_rereading hSession h.tx hScript hStep
    exact ⟨next, hNext, .inr ⟨rfl, hSame, hDone⟩⟩
  | returned c => simp [World.step, hSession, World.runSession, h.tx, hScript] at hStep
  | refused e => simp [World.step, hSession, World.runSession, h.tx, hScript] at hStep

theorem InsertStep.stage {db db' : Database} {now : Nat}
    (h : InsertStep services input snapshot drawn db now db' script) :
    CreateStage services input snapshot drawn script := by
  cases h with
  | created _ _ _ => exact .returned _
  | duplicate => exact .rereading
  | refused _ => exact .refused _

theorem RereadStep.stage {db : Database} (h : RereadStep services input db script) :
    CreateStage services input snapshot drawn script := by
  cases h with
  | replayed _ _ _ => exact .returned _
  | mismatch _ _ => exact .refused _
  | gone _ => exact .refused _

theorem CreateStage.not_call {effect : Reply → conversion.Ext → Option conversion.Ext}
    {next : Reply → Script conversion Outcome} :
    ¬ CreateStage services input snapshot drawn (Script.call (V := conversion) effect next) := by
  intro h
  generalize hScript : Script.call (V := conversion) effect next = script at h
  cases h with
  | inserting =>
    rcases inserting_cases services input snapshot drawn with
      ⟨e, hFail⟩ | ⟨write, rest, hInsert⟩
    · rw [hFail] at hScript
      cases hScript
    · rw [hInsert] at hScript
      cases hScript
  | rereading => cases hScript
  | returned c => cases hScript
  | refused e => cases hScript

theorem inserting_result : (inserting services input snapshot drawn).result = none := by
  rcases inserting_cases services input snapshot drawn with ⟨e, hFail⟩ | ⟨write, next, hInsert⟩
  · rw [hFail]
    rfl
  · rw [hInsert]
    rfl

theorem CreateSession.only_runs (h : CreateSession services input snapshot drawn session)
    (hSession : w.sessions sid = some session) {action : Action conversion Call}
    (hActor : World.Action.actor action = some sid)
    (hStep : World.step (system services) w action = some w') :
    action = .run sid ∨ action = .kill sid := by
  cases action with
  | tick ms => cases hActor
  | spawn other call =>
    cases hActor
    simp [World.step, hSession] at hStep
  | run other =>
    cases hActor
    exact .inl rfl
  | answer other reply =>
    cases hActor
    simp only [World.step, hSession, Option.bind_some] at hStep
    unfold World.answerSession at hStep
    split at hStep
    · next hScript => exact absurd (hScript ▸ h.stage) CreateStage.not_call
    · cases hStep
  | rollback other =>
    cases hActor
    simp [World.step, hSession, h.tx] at hStep
  | kill other =>
    cases hActor
    exact .inr rfl

/-- A session that serves createBatch has just started, or it has come to its state by a statement.
-/
theorem CreateSession.acts {action : Action conversion Call}
    {session' : Session conversion Call Outcome}
    (hBefore : ∀ session, w.sessions sid = some session →
      session.call = .createBatch input snapshot drawn →
      CreateSession services input snapshot drawn session)
    (hStep : World.step (system services) w action = some w')
    (hActor : World.Action.actor action = some sid) (hSession' : w'.sessions sid = some session')
    (hCall' : session'.call = .createBatch input snapshot drawn) :
    session' = ⟨.createBatch input snapshot drawn,
      inserting services input snapshot drawn, none, []⟩ ∨
      ∃ session, w.sessions sid = some session ∧
        CreateSession services input snapshot drawn session ∧
        action = .run sid := by
  cases hSession : w.sessions sid with
  | none =>
    left
    obtain ⟨call, rfl⟩ := World.spawn_of_step hStep hSession hActor
    obtain ⟨_, _, ext, script, hProgram, hNew⟩ := World.step_spawn hStep
    cases hNew.symm.trans hSession'
    subst hCall'
    unfold system at hProgram
    dsimp only at hProgram
    split at hProgram <;> cases hProgram
    rfl
  | some session =>
    right
    have hAlive : action ≠ .kill sid := by
      rintro rfl
      cases (World.step_kill hStep).2.symm.trans hSession'
    obtain ⟨found, hFound, hSame⟩ := World.step_session hStep hSession hAlive
    cases hFound.symm.trans hSession'
    have hCreate := hBefore session hSession (hSame.symm.trans hCall')
    exact ⟨session, rfl, hCreate, (hCreate.only_runs hSession hActor hStep).resolve_right hAlive⟩

theorem createSession_of_run {now : Nat} (h : World.Leads (system services) (start now) w)
    (hSession : w.sessions sid = some session)
    (hCall : session.call = .createBatch input snapshot drawn) :
    CreateSession services input snapshot drawn session := by
  induction h generalizing session with
  | refl => cases hSession
  | @tail middle last _ hStep ih =>
    obtain ⟨action, hStep⟩ := hStep
    by_cases hActor : World.Action.actor action = some sid
    · rcases CreateSession.acts (fun _ => ih) hStep hActor hSession hCall with hFresh |
        ⟨before, hBefore, hCreate, hRun⟩
      · subst hFresh
        exact ⟨rfl, rfl, .inserting⟩
      · subst hRun
        obtain ⟨script, hAfter, hDone⟩ := hCreate.step hBefore hStep
        cases hAfter.symm.trans hSession
        refine ⟨hCall, hCreate.tx, ?_⟩
        rcases hDone with ⟨_, hInsert⟩ | ⟨_, _, hReread⟩
        · exact hInsert.stage
        · exact hReread.stage
    · rw [World.step_other hStep hActor] at hSession
      exact ih hSession hCall

end Step

/-! ## One batch under a key -/

section Batches

variable {p : Policy} {e : LogEntry} {s s' : Shared conversion Call} {held : Resource → Prop}

theorem accepted_of_allowed {planCode : ConversionPlanCode} {now : Nat}
    (h : (Commit.create input snapshot planCode drawn now).Allowed services p e) :
    e.before.acceptsBatch input drawn = true := by
  obtain ⟨_, _, _, _, _, hAccepts, _⟩ := h
  exact hAccepts

def Database.Distinct (db : Database) : Prop :=
  ∀ b ∈ db.batches.rows, ∀ b' ∈ db.batches.rows, b'.subject = b.subject →
    b'.idempotencyKey = b.idempotencyKey → b' = b

theorem BatchStep.same {b b' : ConversionBatch} (h : BatchStep b b') :
    b'.id = b.id ∧ b'.subject = b.subject ∧
    b'.batchTokenHash = b.batchTokenHash ∧ b'.idempotencyKey = b.idempotencyKey ∧ b'.mode = b.mode ∧
    b'.strength = b.strength ∧ b'.fileCount = b.fileCount := by
  rw [h]
  exact ⟨rfl, rfl, rfl, rfl, rfl, rfl, rfl⟩

theorem Legal.distinct (h : Legal services p e)
    (hDistinct : e.before.Distinct) : e.after.Distinct := by
  intro b hb b' hb' hSubject hKey
  have hGet := Table.get_of_mem hb
  have hGet' := Table.get_of_mem hb'
  suffices hId : b'.id = b.id by
    rw [hId] at hGet'
    exact Option.some.inj (hGet'.symm.trans hGet)
  rcases h.batch_origin hGet with ⟨b₀, hOld, hStep⟩ |
    ⟨_, input, snapshot, planCode, drawn, hAllowed, _, hId, hNew⟩
  · rcases h.batch_origin hGet' with ⟨b₀', hOld', hStep'⟩ |
      ⟨_, input', snapshot', planCode', drawn', hAllowed', _, hId', hNew'⟩
    · obtain ⟨hSameId, hSameSubject, _, hSameKey, _⟩ := hStep.same
      obtain ⟨hSameId', hSameSubject', _, hSameKey', _⟩ := hStep'.same
      have hSame : b₀' = b₀ := by
        refine hDistinct b₀ (Table.mem_of_get hOld) b₀' (Table.mem_of_get hOld') ?_ ?_
        · rw [← hSameSubject', ← hSameSubject, hSubject]
        · rw [← hSameKey', ← hSameKey, hKey]
      rw [hSameId', hSameId, hSame]
    · refine absurd ?_ (not_under (accepted_of_allowed hAllowed') b₀)
      obtain ⟨_, hSameSubject, _, hSameKey, _⟩ := hStep.same
      refine ⟨Table.mem_of_get hOld, ?_, ?_⟩
      · rw [← hSameSubject, ← hSubject, hNew']
        rfl
      · rw [← hSameKey, ← hKey, hNew']
        rfl
  · rcases h.batch_origin hGet' with ⟨b₀', hOld', hStep'⟩ |
      ⟨_, input', snapshot', planCode', drawn', hAllowed', _, hId', hNew'⟩
    · refine absurd ?_ (not_under (accepted_of_allowed hAllowed) b₀')
      obtain ⟨_, hSameSubject', _, hSameKey', _⟩ := hStep'.same
      refine ⟨Table.mem_of_get hOld', ?_, ?_⟩
      · rw [← hSameSubject', hSubject, hNew]
        rfl
      · rw [← hSameKey', hKey, hNew]
        rfl
    · have hCall := hAllowed.1.symm.trans hAllowed'.1
      cases hCall
      rw [hId, hId']

theorem rely_same_files (h : (discipline services p).Rely held s s') {b b' : ConversionBatch}
    (hb : b ∈ s.db.batches.rows) (hb' : b' ∈ s'.db.batches.rows)
    (hId : b'.id = b.id) : BatchStep b b' ∧
      ∀ id, id ∈ (s'.db.filesOf b.id).map ConversionFile.id ↔
        id ∈ (s.db.filesOf b.id).map ConversionFile.id := by
  have hGet := Table.get_of_mem hb
  have hBoth : b.id ∈ s'.db.issued ∧ ∀ b₁, s'.db.batches.get b.id = some b₁ → BatchStep b b₁ ∧
      ∀ id, id ∈ (s'.db.filesOf b.id).map ConversionFile.id ↔
        id ∈ (s.db.filesOf b.id).map ConversionFile.id := by
    refine rely_preserves h (P := fun db => b.id ∈ db.issued ∧ ∀ b₁,
      db.batches.get b.id = some b₁ → BatchStep b b₁ ∧
      ∀ id, id ∈ (db.filesOf b.id).map ConversionFile.id ↔
        id ∈ (s.db.filesOf b.id).map ConversionFile.id)
      (fun e hLegal _ _ _ _ hHere => ⟨hLegal.issued hHere.1, fun b₂ hb₂ => ?_⟩)
      ⟨(Sound.consistent h.before).issuedBatches b hb, fun b₁ hb₁ => ?_⟩
    · have hTaken (drawn : Drawn) (input : CreateBatchInput)
        (hAccepts : e.before.acceptsBatch input drawn = true) :
          b.id ≠ drawn.batchId := by
        intro hSame
        simp only [Database.acceptsBatch, Bool.and_eq_true, decide_eq_true_eq] at hAccepts
        exact hAccepts.1 (hSame ▸ hHere.1)
      rcases hLegal.batch_origin hb₂ with ⟨b₁, hb₁, hStep⟩ |
        ⟨_, _, _, _, drawn, hAllowed, _, hSame, _⟩
      · obtain ⟨hSoFar, hFiles⟩ := hHere.2 b₁ hb₁
        refine ⟨hSoFar.trans hStep, fun id => Iff.trans ?_ (hFiles id)⟩
        simp only [List.mem_map, Database.mem_filesOf]
        constructor
        · rintro ⟨f', ⟨hf', hBatch⟩, rfl⟩
          rcases hLegal.file_origin (Table.get_of_mem hf') with ⟨f, hf, hFile⟩ |
            ⟨_, _, _, _, drawn, hAllowed, _, _, hNew⟩
          · exact ⟨f, ⟨Table.mem_of_get hf, hFile.batchId ▸ hBatch⟩, hFile.id.symm⟩
          · rw [hNew] at hBatch
            exact absurd hBatch.symm (hTaken drawn _ (accepted_of_allowed hAllowed))
        · rintro ⟨f, ⟨hf, hBatch⟩, rfl⟩
          rcases hLegal.fileAfter (Table.get_of_mem hf) with ⟨f', hf', hFile⟩ | ⟨_, hGone, _⟩
          · exact ⟨f', ⟨Table.mem_of_get hf', hFile.batchId.trans hBatch⟩, hFile.id⟩
          · rw [hBatch, hb₂] at hGone
            cases hGone
      · exact absurd hSame (hTaken drawn _ (accepted_of_allowed hAllowed))
    · rw [Option.some.inj (hb₁.symm.trans hGet)]
      exact ⟨.refl b, fun _ => Iff.rfl⟩
  exact hBoth.2 b' (hId ▸ Table.get_of_mem hb')

/-- The entry with which a call created a batch. -/
def CreatedBy (services : Services) (e : LogEntry) (b : ConversionBatch) : Prop :=
  ∃ input snapshot planCode drawn, e.call = .createBatch input snapshot drawn ∧
    BatchStep (newBatch services input snapshot planCode drawn e.endedAt) b

theorem created_of_run {now : Nat} {w : World conversion Call Outcome}
    (h : World.Leads (system services) (start now) w) :
    ∀ b ∈ w.shared.db.batches.rows, ∃ e ∈ w.shared.history,
      CreatedBy services e b := by
  have hStep (past : List LogEntry) (e : LogEntry) (hLegal : Legal services .free e ∧
    Consistent e.before e.endedAt)
      (hHere : ∀ b ∈ e.before.batches.rows, ∃ e ∈ past, CreatedBy services e b) :
      ∀ b ∈ e.after.batches.rows, ∃ e' ∈ past ++ [e], CreatedBy services e' b := by
    intro b hb
    rcases hLegal.1.batch_origin (Table.get_of_mem hb) with
      ⟨b₀, hOld, hStep⟩ | ⟨_, input, snapshot, planCode, drawn, hAllowed, _, _, hNew⟩
    · obtain ⟨e', he', input, snapshot, planCode, drawn, hCall, hSoFar⟩ :=
        hHere b₀ (Table.mem_of_get hOld)
      exact ⟨e', List.mem_append_left _ he', input, snapshot, planCode, drawn, hCall,
        hSoFar.trans hStep⟩
    · refine ⟨e, List.mem_append_right _ List.mem_cons_self, input, snapshot, planCode, drawn,
        hAllowed.1, ?_⟩
      rw [hNew]
      exact .refl _
  have hPast : ∀ b ∈ w.shared.db.batches.rows, ∃ e ∈ [] ++ w.shared.history,
    CreatedBy services e b :=
    (system_path h).recorded (P := fun past (db : Database) _ => ∀ b ∈ db.batches.rows, ∃ e ∈ past,
      CreatedBy services e b)
      (fun _ _ _ _ _ hSame => hSame) (fun past e _ hLegal hHere => hStep past e hLegal hHere)
        fun b hb => by cases hb
  exact hPast

end Batches

/-! ## What every call gets -/

/-- The moment at which a call of createBatch returns: the step after which it has a result. -/
structure Succeeds (services : Services) (w w' : World conversion Call Outcome) (sid : Nat)
    (input : CreateBatchInput) (c : CreatedBatch) : Prop where
  step : ∃ action, World.step (system services) w action = some w'
  call : ∃ session snapshot drawn, w'.sessions sid = some session ∧
    session.call = .createBatch input snapshot drawn
  open_ : w.returned sid = none
  returned : w'.returned sid = some (.created c)

/-- From a state `w` on, creating batches is idempotent. -/
structure Idempotent (services : Services) (w : World conversion Call Outcome) : Prop where
  one : w.shared.db.Distinct
  /-- A call returns the batch under its key, with the batch's files and its own arguments. -/
  current : ∀ w' sid input c, Succeeds services w w' sid input c →
    Under input w'.shared.db c.batch ∧ SameArguments c.batch input ∧ ∀ f, f ∈ c.files ↔
      f ∈ w'.shared.db.filesOf c.batch.id
  /-- A later call returns the same batch as long as that one exists. -/
  same : ∀ w' sid input c, Succeeds services w w' sid input c → ∀ w₂ w₂' sid₂ input₂ c₂,
    World.Leads (system services) w' w₂ → Succeeds services w₂ w₂' sid₂ input₂ c₂ →
      input₂.subject = input.subject →
    input₂.idempotencyKey = input.idempotencyKey →
      (∃ b ∈ w₂'.shared.db.batches.rows, b.id = c.batch.id) →
    c₂.replayed = true ∧ BatchStep c.batch c₂.batch ∧
      ∀ id, id ∈ c₂.files.map ConversionFile.id ↔ id ∈ c.files.map ConversionFile.id
  /-- A batch with a token is returned again only for the token that its creator drew. -/
  token : ∀ w' sid input c, Succeeds services w w' sid input c → c.replayed = true →
    c.batch.batchTokenHash ≠ none →
    ∃ e ∈ w.shared.history, ∃ input₀ snapshot drawn token,
      e.call = .createBatch input₀ snapshot drawn ∧
      drawn.batchId = c.batch.id ∧ input₀.anonymous = true ∧ input.batchToken = some token ∧
      services.digest token = services.digest drawn.batchToken
  /-- With other arguments a call is refused, at the latest by its second statement. -/
  refused : ∀ w' sid session input snapshot drawn, w.sessions sid = some session →
    session.call = .createBatch input snapshot drawn →
      World.step (system services) w (.run sid) = some w' →
    ∀ b, Under input w.shared.db b → ¬ SameArguments b input →
      session.script = inserting services input snapshot drawn ∧
          w'.sessions sid = some { session with script := rereading services input } ∨
        session.script = rereading services input ∧
          (w'.failed sid = some (.admission .idempotencyConflict) ∨
          w'.failed sid = some (.admission .batchTokenMismatch))
  /-- The only step of a call that changes rows is the one that returns a new batch. -/
  unchanged : ∀ action w' sid session input snapshot drawn, w.sessions sid = some session →
    session.call = .createBatch input snapshot drawn → World.Action.actor action = some sid →
    World.step (system services) w action = some w' → w'.shared.db ≠ w.shared.db →
    ∃ c, Succeeds services w w' sid input c ∧ c.replayed = false ∧
      w'.shared.db = w.shared.db.insertBatch c.batch c.files

section Calls

variable {now : Nat} {w w' : World conversion Call Outcome} {sid : Nat} {c : CreatedBatch}

theorem distinct_of_run (h : World.Leads (system services) (start now) w) : w.shared.db.Distinct :=
  (system_path h).preserves (P := fun (db : Database) _ => db.Distinct) (fun _ _ _ _ hSame => hSame)
    (fun _ _ hLegal hHere => hLegal.1.distinct hHere) fun b hb => by cases hb

theorem Database.Distinct.under {db : Database} {b b' : ConversionBatch} (h : db.Distinct)
    (hb : Under input db b) (hb' : Under input db b') : b' = b :=
  h b hb.row b' hb'.row (hb'.subject.trans hb.subject.symm)
    (hb'.idempotencyKey.trans hb.idempotencyKey.symm)

/-- What a step of a call leads to, if that is a result. -/
inductive Result (services : Services) (input : CreateBatchInput) (drawn : Drawn) (db : Database)
    (now : Nat) :
    Database → CreatedBatch → Prop
  | created {snapshot : EntitlementSnapshot} {planCode : ConversionPlanCode} {c : CreatedBatch} :
    c = newlyCreated services input snapshot drawn planCode now →
      db.acceptsBatch input drawn = true →
    db.acceptsFiles drawn = true →
      Result services input drawn db now (db.insertBatch c.batch c.files) c
  | replayed {b : ConversionBatch} : Under input db b → Presents services input.batchToken b →
      SameArguments b input →
    Result services input drawn db now db ⟨b, db.filesOf b.id, none, true⟩

theorem Succeeds.result (h : World.Leads (system services) (start now) w)
    (hSucceeds : Succeeds services w w' sid input c) :
    ∃ drawn, Result services input drawn w.shared.db w.shared.now w'.shared.db c := by
  obtain ⟨action, hStep⟩ := hSucceeds.step
  obtain ⟨session', snapshot, drawn, hSession', hCall'⟩ := hSucceeds.call
  refine ⟨drawn, ?_⟩
  have hDone : session'.script = .done (.created c) := by
    obtain ⟨found, hFound, hScript⟩ := World.returned_eq_some.mp hSucceeds.returned
    cases hSession'.symm.trans hFound
    exact hScript
  have hActor : World.Action.actor action = some sid := by
    by_contra hOther
    have hSame := hSucceeds.open_
    rw [World.returned, ← World.step_other hStep hOther, ← World.returned,
      hSucceeds.returned] at hSame
    cases hSame
  have hReachable (session : Session conversion Call Outcome)
    (hSession : w.sessions sid = some session)
      (hCall : session.call = .createBatch input snapshot drawn) : CreateSession services input
        snapshot drawn session :=
    createSession_of_run h hSession hCall
  rcases CreateSession.acts hReachable hStep hActor hSession' hCall' with hFresh |
    ⟨session, hSession, hCreate, hRun⟩
  · subst hFresh
    cases (Script.result_eq_some.mpr hDone).symm.trans inserting_result
  · subst hRun
    obtain ⟨script, hAfter, hCases⟩ := hCreate.step hSession hStep
    cases hAfter.symm.trans hSession'
    dsimp only at hDone
    rcases hCases with ⟨_, hInsert⟩ | ⟨_, hDb, hReread⟩
    · generalize w'.shared.db = db' at hInsert ⊢
      cases hInsert with
      | created hNew hBatch hFiles =>
        cases hDone
        exact .created hNew hBatch hFiles
      | duplicate => cases hDone
      | refused _ => cases hDone
    · rw [hDb]
      cases hReread with
      | replayed hUnder hPresents hSame =>
        cases hDone
        exact .replayed hUnder hPresents hSame
      | mismatch _ _ => cases hDone
      | gone _ => cases hDone

theorem mem_newlyCreated {planCode : ConversionPlanCode} {f : ConversionFile} :
    f ∈ (newlyCreated services input snapshot drawn planCode now).files ↔
      f.id ∈ drawn.fileIds ∧ f = newFile drawn.batchId f.id (now + uploadWindowMs) := by
  simp only [newlyCreated, List.mem_map]
  constructor
  · rintro ⟨fileId, hFileId, rfl⟩
    exact ⟨hFileId, rfl⟩
  · exact fun ⟨hFileId, hNew⟩ => ⟨f.id, hFileId, hNew.symm⟩

theorem Consistent.filesOf_newlyCreated {db : Database} {t : Nat} {planCode : ConversionPlanCode}
    (hCons : Consistent db t) (hBatch : db.acceptsBatch input drawn = true)
    (hFiles : db.acceptsFiles drawn = true)
    (hNew : c = newlyCreated services input snapshot drawn planCode now) (f : ConversionFile) :
    f ∈ c.files ↔ f ∈ (db.insertBatch c.batch c.files).filesOf c.batch.id := by
  simp only [Database.acceptsBatch, Database.acceptsFiles, Bool.and_eq_true, List.all_eq_true,
    decide_eq_true_eq] at hBatch hFiles
  have hFresh : ∀ fileId ∈ drawn.fileIds, db.files.get fileId = none := fun fileId hMem =>
    Table.get_eq_none_iff.mpr fun f hf hId => hFiles.1 fileId hMem (hId ▸ hCons.issuedFiles f hf)
  rw [Database.mem_filesOf, Table.mem_rows_iff, Database.get_insertBatch_files]
  constructor
  · intro hMem
    have hMem' := hMem
    rw [hNew, mem_newlyCreated] at hMem'
    obtain ⟨hFileId, hEq⟩ := hMem'
    rw [hFresh f.id hFileId, Option.none_or, hNew]
    refine ⟨?_, ?_⟩
    · rw [newlyCreated, find_newFile hFileId, ← hEq]
    · rw [hEq]
      rfl
  · rintro ⟨hFound, hId⟩
    rcases Option.or_eq_some_iff.mp hFound with hOld | ⟨_, hNewFile⟩
    · obtain ⟨b, hb⟩ := hCons.owned f (Table.mem_of_get hOld)
      have hTaken : b.id = drawn.batchId := by
        rw [Table.key_of_get hb, hId, hNew]
        rfl
      exact absurd (hTaken ▸ hCons.issuedBatches b (Table.mem_of_get hb)) hBatch.1
    · exact List.mem_of_find?_eq_some hNewFile

theorem Result.current {db db' : Database} {t : Nat} (hCons : Consistent db t)
    (h : Result services input drawn db now db' c) :
    Under input db' c.batch ∧ SameArguments c.batch input ∧ ∀ f, f ∈ c.files ↔
      f ∈ db'.filesOf c.batch.id := by
  cases h with
  | created hNew hBatch hFiles =>
    refine ⟨⟨?_, ?_, ?_⟩, ?_, hCons.filesOf_newlyCreated hBatch hFiles hNew⟩
    · have hFresh : db.batches.get c.batch.id = none := by
        simp only [Database.acceptsBatch, Bool.and_eq_true, decide_eq_true_eq] at hBatch
        refine Table.get_eq_none_iff.mpr fun b hb hId => hBatch.1 ?_
        rw [hNew] at hId
        exact (show b.id = drawn.batchId from hId) ▸ hCons.issuedBatches b hb
      rw [Table.mem_rows_iff, Database.get_insertBatch_batches, hFresh, Option.none_or, if_pos rfl]
    · rw [hNew]
      rfl
    · rw [hNew]
      rfl
    · rw [hNew]
      exact ⟨rfl, rfl, rfl⟩
  | replayed hUnder _ hSame => exact ⟨hUnder, hSame, fun _ => Iff.rfl⟩

theorem Result.same {db db' : Database} {b : ConversionBatch} (hDistinct : db.Distinct)
    (hIssued : b.id ∈ db.issued) (hKey : ∀ b₁, db.batches.get b.id = some b₁ → Under input db b₁)
    (hStill : ∃ b₁ ∈ db'.batches.rows, b₁.id = b.id)
    (h : Result services input drawn db now db' c) :
    c.replayed = true ∧ c.batch ∈ db.batches.rows ∧ c.batch.id = b.id ∧
    c.files = db.filesOf b.id := by
  obtain ⟨b₁, hb₁, hId⟩ := hStill
  cases h with
  | created hNew hBatch _ =>
    have hGet := Table.get_of_mem hb₁
    rw [hId, Database.get_insertBatch_batches] at hGet
    rcases Option.or_eq_some_iff.mp hGet with hOld | ⟨_, hFresh⟩
    · exact absurd (hKey b₁ hOld) (not_under hBatch b₁)
    · simp only [Database.acceptsBatch, Bool.and_eq_true, decide_eq_true_eq] at hBatch
      split at hFresh
      · next hSame =>
        rw [hNew] at hSame
        exact absurd ((show drawn.batchId = b.id from hSame) ▸ hIssued) hBatch.1
      · cases hFresh
  | replayed hUnder _ _ =>
    obtain rfl := hDistinct.under hUnder (hKey b₁ (hId ▸ Table.get_of_mem hb₁))
    refine ⟨rfl, hUnder.row, hId, ?_⟩
    rw [← hId]

end Calls

/-- Creating batches is idempotent from every reachable state on. -/
theorem createBatch_idempotent (services : Services) (hDigest : ∀ text, services.digest text ≠ "")
    (now : Nat) (w : World conversion Call Outcome)
    (h : World.Leads (system services) (start now) w) : Idempotent services w where
  one := distinct_of_run h
  current w' sid input c hSucceeds := by
    obtain ⟨drawn, hResult⟩ := hSucceeds.result h
    exact hResult.current (Sound.consistent (system_sound h))
  same w' sid input c hSucceeds w₂ w₂' sid₂ input₂ c₂ hLater hSucceeds₂ hSubject hKey hStill := by
    obtain ⟨drawn, hResult⟩ := hSucceeds.result h
    obtain ⟨hUnder, _, hFiles⟩ := hResult.current (Sound.consistent (system_sound h))
    have hReached := h.tail hSucceeds.step
    have hRely := system_rely hReached hLater
    obtain ⟨drawn₂, hResult₂⟩ := hSucceeds₂.result (hReached.trans hLater)
    have hBatches (b₁ : ConversionBatch) (hb₁ : w₂.shared.db.batches.get c.batch.id = some b₁) :
        Under input₂ w₂.shared.db b₁ := by
      obtain ⟨hStep, _⟩ :=
        rely_same_files hRely hUnder.row (Table.mem_of_get hb₁) (Table.key_of_get hb₁)
      obtain ⟨_, hSameSubject, _, hSameKey, _⟩ := hStep.same
      refine ⟨Table.mem_of_get hb₁, ?_, ?_⟩
      · rw [hSameSubject, hUnder.subject, hSubject]
      · rw [hSameKey, hUnder.idempotencyKey, hKey]
    have hIssued :=
      rely_issued hRely ((Sound.consistent (system_sound hReached)).issuedBatches _ hUnder.row)
    obtain ⟨hReplayed, hRow, hId, hFiles₂⟩ :=
      hResult₂.same (distinct_of_run (hReached.trans hLater)) hIssued hBatches hStill
    obtain ⟨hStep, hSameFiles⟩ := rely_same_files hRely hUnder.row hRow hId
    refine ⟨hReplayed, hStep, fun id => ?_⟩
    rw [hFiles₂, hSameFiles id]
    simp only [List.mem_map, hFiles]
  token w' sid input c hSucceeds hReplayed hToken := by
    obtain ⟨drawn, hResult⟩ := hSucceeds.result h
    obtain ⟨hash, hHash⟩ := Option.ne_none_iff_exists'.mp hToken
    generalize w'.shared.db = db' at hResult
    cases hResult with
    | created hNew _ _ =>
      rw [hNew] at hReplayed
      cases hReplayed
    | replayed hUnder hPresents _ =>
      obtain ⟨e, he, input₀, snapshot, planCode, drawn₀, hCall, hStep⟩ :=
        created_of_run h _ hUnder.row
      obtain ⟨hId, _, hSameHash, _⟩ := hStep.same
      dsimp only at hHash
      rw [hHash] at hSameHash
      simp only [newBatch] at hSameHash hId
      split at hSameHash
      · next hAnonymous =>
        rw [Option.some.injEq] at hSameHash
        obtain ⟨token, hPresented, _, hEqual⟩ := hPresents hash hHash (hSameHash ▸ hDigest _)
        exact ⟨e, he, input₀, snapshot, drawn₀, token, hCall, hId.symm, hAnonymous, hPresented,
          hEqual.trans hSameHash⟩
      · cases hSameHash
  refused w' sid session input snapshot drawn hSession hCall hStep b hUnder hOther := by
    have hCreate := createSession_of_run h hSession hCall
    obtain ⟨script, hAfter, hCases⟩ := hCreate.step hSession hStep
    rcases hCases with ⟨hAt, hInsert⟩ | ⟨hAt, _, hReread⟩
    · refine .inl ⟨hAt, ?_⟩
      generalize w'.shared.db = db' at hInsert
      cases hInsert with
      | created _ hBatch _ => exact absurd hUnder (not_under hBatch b)
      | duplicate => exact hAfter
      | refused hNone => exact absurd hUnder (hNone b)
    · refine .inr ⟨hAt, ?_⟩
      have hFailed (code : AdmissionErrorCode) (hScript : script = .fail (.admission code)) :
          w'.failed sid = some (.admission code) := by
        simp [World.failed, hAfter, hScript, Script.error]
      cases hReread with
      | replayed hUnder' _ hSame =>
        rw [(distinct_of_run h).under hUnder hUnder'] at hSame
        exact absurd hSame hOther
      | mismatch _ hCode =>
        rcases hCode with rfl | rfl
        · exact .inl (hFailed _ rfl)
        · exact .inr (hFailed _ rfl)
      | gone hNone => exact absurd hUnder (hNone b)
  unchanged action w' sid session input snapshot drawn hSession hCall hActor hStep hChanged := by
    have hCreate := createSession_of_run h hSession hCall
    by_cases hAlive : action = .kill sid
    · subst hAlive
      simp only [World.step, hSession, Option.map_some, hCreate.tx, Option.some.injEq] at hStep
      subst hStep
      exact absurd rfl hChanged
    obtain ⟨session', hSession', hSame⟩ := World.step_session hStep hSession hAlive
    rcases hCreate.only_runs hSession hActor hStep with rfl | rfl
    · obtain ⟨script, hAfter, hCases⟩ := hCreate.step hSession hStep
      rcases hCases with ⟨hAt, hInsert⟩ | ⟨_, hDb, _⟩
      · generalize hDb : w'.shared.db = db' at hInsert hChanged
        cases hInsert with
        | @created _ c hNew _ _ =>
          refine ⟨c, ⟨⟨_, hStep⟩, ⟨session', snapshot, drawn, hSession', hSame.trans hCall⟩, ?_,
            ?_⟩, by rw [hNew]; rfl, rfl⟩
          · simp [World.returned, hSession, hAt, inserting_result]
          · simp [World.returned, hAfter, Script.result]
        | duplicate => exact absurd rfl hChanged
        | refused _ => exact absurd rfl hChanged
      · exact absurd hDb hChanged
    · exact absurd rfl hAlive

namespace Sample

/-- SHA-256 on the one text that is hashed here. -/
def digests : Services :=
  { Sample.services with
    digest := fun text =>
      if text = "token" then "3c469e9d6c5875d37a43f353d4f88e61fcf812c66eee3457465a40b0da4153e0"
        else "other" }

/-- Three calls under one key: the first creates, the second presents its token, the third has none.
-/
def creations : List (Action conversion Call) :=
  [.spawn 0 (.createBatch ⟨"anonymous", true, "key", 1, .lossy, .medium, none⟩ plan ⟨batchId,
    [fileId], "token"⟩),
    .spawn 1 (.createBatch ⟨"anonymous", true, "key", 1, .lossy, .medium, some "token"⟩ plan
      ⟨⟨"c", by decide, by decide⟩, [⟨"g", by decide, by decide⟩], "other"⟩),
    .spawn 2 (.createBatch ⟨"anonymous", true, "key", 1, .lossy, .medium, none⟩ plan
      ⟨⟨"d", by decide, by decide⟩, [⟨"h", by decide, by decide⟩], "third"⟩),
    .run 0, .run 1, .run 1, .run 2, .run 2]

theorem creations_idempotent :
    ∃ w, World.Leads (system digests) (start 0) w ∧ w.shared.db.batches.rows.length = 1 ∧
    (w.returned 1).map (fun | .created c => c.replayed | _ => false) = some true ∧
    w.failed 2 = some (.admission .batchTokenMismatch) ∧ Idempotent digests w := by
  have hDigest (text : String) : digests.digest text ≠ "" := by
    simp only [digests]
    split <;> decide
  have hRun : ((World.run (system digests) (start 0) creations).map fun w =>
    (w.shared.db.batches.rows.length,
      (w.returned 1).map (fun | .created c => c.replayed | _ => false), w.failed 2)) =
      some (1, some true, some (.admission .batchTokenMismatch)) := by decide
  obtain ⟨w, hW, hFacts⟩ := Option.map_eq_some_iff.mp hRun
  simp only [Prod.mk.injEq] at hFacts
  have hLeads := World.leads_of_run hW
  exact ⟨w, hLeads, hFacts.1, hFacts.2.1, hFacts.2.2,
    createBatch_idempotent digests hDigest 0 w hLeads⟩

end Sample

end Pixaeron.Conversion
