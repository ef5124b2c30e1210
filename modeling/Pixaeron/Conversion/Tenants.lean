import Pixaeron.Conversion.Verified.Tenants

/-! # Tenants

What a client's call changes belongs to its subject, in every run of the system and whatever else
is going on. Who has neither the subject nor the token of a batch changes nothing through it.
-/

namespace Pixaeron.Conversion.Tenants

open Transactions

section Runs

variable {services : Services} {now : Nat} {w : World conversion Call Outcome}
  {past later : List LogEntry} {e : LogEntry}
  {known : Database → Prop} {subject : String}

theorem told_of_run (hLeads : World.Leads (system services) (start now) w) :
    (grounds services).Told .initial w.shared :=
  grounded_system.told hLeads

/-! ## Rows that have been seen -/

section Seen

variable (hLeads : World.Leads (system services) (start now) w)
  (hHistory : w.shared.history = past ++ e :: later)
include hLeads hHistory

theorem since_seen {db : Database} (hSeen : Occurred Database.initial past db) :
    ∃ t es t', Consistent db t ∧ Path (Legal services .free) db t es e.before t' := by
  have hPath := system_path hLeads
  rw [hHistory] at hPath
  obtain ⟨⟨t', hFirst⟩, _⟩ := hPath.around
  obtain ⟨earlier, es, t, hEarlier, hSince⟩ := hSeen.path hFirst
  refine ⟨t, es, t', @consistent_of_reached services .free _ _ ⟨earlier, ?_⟩,
    hSince.mono fun e' he' => (hSince.legal e' he').1⟩
  exact hEarlier.mono fun e' he' => (hEarlier.legal e' he').1

theorem batch_of_seen {db : Database} {id : Uuid} {b b' : ConversionBatch}
    (hSeen : Occurred Database.initial past db) (hGet : db.batches.get id = some b)
    (hGet' : e.before.batches.get id = some b') : BatchStep b b' := by
  obtain ⟨t, es, t', hCons, hPath⟩ := since_seen hLeads hHistory hSeen
  have hKnows : e.before.Knows b :=
    hPath.preserves (P := fun (db : Database) _ => db.Knows b) (fun _ _ _ _ h => h)
    (fun e' _ hLegal hHere => hLegal.knows hHere) (hCons.knows hGet)
  exact hKnows.2 b' (Table.key_of_get hGet ▸ hGet')

theorem file_of_seen {db : Database} {id : Uuid} {f f' : ConversionFile}
    (hSeen : Occurred Database.initial past db) (hGet : db.files.get id = some f)
    (hGet' : e.before.files.get id = some f') : f'.batchId = f.batchId := by
  obtain ⟨t, es, t', hCons, hPath⟩ := since_seen hLeads hHistory hSeen
  have hIssued : id ∈ db.issued :=
    Table.key_of_get hGet ▸ hCons.issuedFiles f (Table.mem_of_get hGet)
  have hKept : id ∈ e.before.issued ∧ ∀ f', e.before.files.get id = some f' →
    f'.batchId = f.batchId := by
    refine hPath.preserves (P := fun (db : Database) _ => id ∈ db.issued ∧ ∀ f',
      db.files.get id = some f' → f'.batchId = f.batchId)
      (fun _ _ _ _ h => h) (fun e' _ hLegal hHere => ⟨hLegal.issued hHere.1, fun f₂ hf₂ => ?_⟩)
        ⟨hIssued, fun f₁ hf₁ => ?_⟩
    · obtain ⟨f₁, hf₁, hStep⟩ := hLegal.of_issued hHere.1 hf₂
      exact hStep.batchId.trans (hHere.2 f₁ hf₁)
    · cases hGet.symm.trans hf₁
      rfl
  exact hKept.2 f' hGet'

variable (hKnown : ∀ db, known db → Occurred Database.initial past db)
include hKnown

theorem OwnBatch.subject_eq {id : Uuid} {b : ConversionBatch} (h : OwnBatch known subject id)
    (hGet : e.before.batches.get id = some b) :
    b.subject = subject := by
  obtain ⟨db, hDb, b₀, hGet₀, hSubject⟩ := h
  exact (batch_of_seen hLeads hHistory (hKnown db hDb) hGet₀ hGet).subject.trans hSubject

theorem OwnFile.ownBatch {id : Uuid} {f : ConversionFile} (h : OwnFile known subject id)
    (hGet : e.before.files.get id = some f) :
    OwnBatch known subject f.batchId := by
  obtain ⟨db, hDb, f₀, hGet₀, hBatch⟩ := h
  rwa [file_of_seen hLeads hHistory (hKnown db hDb) hGet₀ hGet]

end Seen

/-! ## Isolation -/

/-- Nothing that belongs to anybody but the subject has been changed, and nothing was added for
anybody else. -/
structure Isolated (subject : String) (before after : Database) : Prop where
  files : ∀ id f b, before.files.get id = some f → before.batches.get f.batchId = some b →
    b.subject ≠ subject →
    after.files.get id = some f
  batches : ∀ id b, before.batches.get id = some b → b.subject ≠ subject →
    after.batches.get id = some b
  newFiles : ∀ id f, before.files.get id = none → after.files.get id = some f →
    ∃ b, after.batches.get f.batchId = some b ∧ b.subject = subject
  newBatches : ∀ id b, before.batches.get id = none → after.batches.get id = some b →
    b.subject = subject
  usage : ∀ key, key.1 ≠ subject → after.usage.get key = before.usage.get key

theorem Isolated.refl (subject : String) (db : Database) : Isolated subject db db where
  files _ _ _ hGet _ _ := hGet
  batches _ _ hGet _ := hGet
  newFiles _ _ hNone hGet := by cases hNone.symm.trans hGet
  newBatches _ _ hNone hGet := by cases hNone.symm.trans hGet
  usage _ _ := rfl

theorem newFiles_of_legal (hLegal : Legal services .free e) (hCons : Consistent e.before e.endedAt)
    (hClient : clientOf e.call = some subject) {id : Uuid} {f : ConversionFile}
    (hNone : e.before.files.get id = none) (hGet : e.after.files.get id = some f) :
    ∃ b, e.after.batches.get f.batchId = some b ∧ b.subject = subject := by
  rcases hLegal.file_origin hGet with ⟨old, hOld, _⟩ |
    ⟨_, input, snapshot, planCode, drawn, hAllowed, hApply, _, rfl⟩
  · cases hNone.symm.trans hOld
  obtain ⟨hCall, _, _, _, _, hAccepts, _⟩ := hAllowed
  rw [hCall] at hClient
  cases hClient
  refine ⟨newBatch services input snapshot planCode drawn e.endedAt, ?_, rfl⟩
  have hFresh : e.before.batches.get drawn.batchId = none := by
    simp only [Database.acceptsBatch, Bool.and_eq_true, decide_eq_true_eq] at hAccepts
    exact Table.get_eq_none_iff.mpr fun b hb hId => hAccepts.1 (hId ▸ hCons.issuedBatches b hb)
  rw [hApply, Commit.apply, Database.get_insertBatch_batches]
  exact (congrArg (Option.or · _) hFresh).trans (if_pos rfl)

theorem newBatches_of_legal (hLegal : Legal services .free e)
    (hClient : clientOf e.call = some subject) {id : Uuid} {b : ConversionBatch}
    (hNone : e.before.batches.get id = none) (hGet : e.after.batches.get id = some b) :
    b.subject = subject := by
  rcases hLegal.batch_origin hGet with ⟨old, hOld, _⟩ |
    ⟨_, input, snapshot, planCode, drawn, hAllowed, _, _, rfl⟩
  · cases hNone.symm.trans hOld
  rw [hAllowed.1] at hClient
  cases hClient
  rfl

/-- Whatever a client's call commits, at any moment of any run, leaves the batches, the files and
the daily usage of all other subjects as they are, and adds nothing to them. -/
theorem client_isolated (hLeads : World.Leads (system services) (start now) w) :
    ∀ e ∈ w.shared.history, ∀ subject, clientOf e.call = some subject →
      Isolated subject e.before e.after := by
  intro e he subject hClient
  obtain ⟨past, later, hHistory⟩ := List.append_of_mem he
  obtain ⟨hLegal, hCons⟩ := system_legal hLeads e he
  rcases told_of_run hLeads past e later hHistory with ⟨_, hSame⟩ |
    ⟨_, known, p, hFair, _, _, hAfter, hKnown⟩
  · rw [hSame]
    exact .refl subject e.before
  have hConfined := hFair.confined subject hClient
  constructor
  case files =>
    intro id f b hGet hOwner hOther
    rcases hConfined.files e.before id f hGet with hKept | hOwn
    · rwa [hAfter]
    · have hMine := hOwn.ownBatch hLeads hHistory hKnown hGet
      exact absurd (hMine.subject_eq hLeads hHistory hKnown hOwner) hOther
  case batches =>
    intro id b hGet hOther
    rcases hConfined.batches e.before id b hGet with hKept | hOwn
    · rwa [hAfter]
    · exact absurd (hOwn.subject_eq hLeads hHistory hKnown hGet) hOther
  case newFiles => exact fun id f => newFiles_of_legal hLegal hCons hClient
  case newBatches => exact fun id b => newBatches_of_legal hLegal hClient
  case usage =>
    intro key hOther
    rw [hAfter]
    exact (hConfined.usage e.before key).resolve_right hOther

/-! ## Authorisation -/

/-- The caller names the subject of the batch and presents its token, if the batch has one. -/
def Permits (services : Services) (ownership : BatchOwnership) (b : ConversionBatch) : Prop :=
  b.subject = ownership.subject ∧ Presents services ownership.batchToken b

/-- A call of completeUploads or admitReadyFiles that commits a change has before seen its batch,
which permits it; and if there is a batch under that identifier when it commits, it permits it too.
-/
theorem admission_permitted (hLeads : World.Leads (system services) (start now) w) :
    ∀ past e later batchId ownership snapshot, w.shared.history = past ++ e :: later →
      e.call.admission = some (batchId, ownership, snapshot) → e.after ≠ e.before →
      (∃ (db : Database) (b : ConversionBatch), Occurred Database.initial past db ∧
        db.batches.get batchId = some b ∧ Permits services ownership b) ∧
        ∀ b, e.before.batches.get batchId = some b → Permits services ownership b := by
  intro past e later batchId ownership snapshot hHistory hCall hChanged
  rcases told_of_run hLeads past e later hHistory with ⟨_, hSame⟩ |
    ⟨_, known, p, hFair, _, _, hAfter, hKnown⟩
  · exact absurd hSame hChanged
  rcases hFair.authorised batchId ownership snapshot hCall with hNothing |
    ⟨db, hDb, b, hGet, hSubject, hPresents⟩
  · exact absurd (hAfter.trans (hNothing e.before)) hChanged
  refine ⟨⟨db, b, hKnown db hDb, hGet, hSubject, hPresents⟩, fun b' hGet' => ?_⟩
  have hStep := batch_of_seen hLeads hHistory (hKnown db hDb) hGet hGet'
  refine ⟨hStep.subject.trans hSubject, fun hash hHash => hPresents hash ?_⟩
  rwa [hStep.same.2.2.1] at hHash

end Runs

namespace Sample

open Conversion.Sample

def bobsBatch : Uuid := ⟨"b'", by decide, by decide⟩

def bobsFile : Uuid := ⟨"f'", by decide, by decide⟩

/-- Bob has a batch when alice's file is admitted. -/
def twoTenants : List (Action conversion Call) :=
  [.spawn 9 (.createBatch ⟨"bob", false, "key", 1, .lossy, .medium, none⟩ plan ⟨bobsBatch,
    [bobsFile], ""⟩), .run 9] ++ admission

theorem client_isolated_bob : ∃ w e b, World.Leads (system services) (start 0) w ∧
    e ∈ w.shared.history ∧ clientOf e.call = some "alice" ∧
    e.before.batches.get bobsBatch = some b ∧ b.subject ≠ "alice" ∧
    e.after.batches.get bobsBatch = some b := by
  have hRun : ((World.run (system services) (start 0) twoTenants).bind fun w =>
    w.shared.history.getLast?.map fun e =>
      (clientOf e.call, (e.before.batches.get bobsBatch).map ConversionBatch.subject)) =
        some (some "alice", some "bob") := by decide
  obtain ⟨w, hW, hLast⟩ := Option.bind_eq_some_iff.mp hRun
  obtain ⟨e, hE, hBoth⟩ := Option.map_eq_some_iff.mp hLast
  obtain ⟨hClient, hBob⟩ := Prod.mk.inj hBoth
  obtain ⟨b, hGet, hSubject⟩ := Option.map_eq_some_iff.mp hBob
  have hLeads := World.leads_of_run hW
  have hMem := List.mem_of_getLast? hE
  have hOther : b.subject ≠ "alice" := by
    rw [hSubject]
    decide
  exact ⟨w, e, b, hLeads, hMem, hClient, hGet, hOther,
    (client_isolated hLeads e hMem "alice" hClient).batches bobsBatch b hGet hOther⟩

/-- The admission of alice's file. -/
theorem admission_permitted_alice :
    ∃ past e later b, e.call.admission = some (batchId, alice, plan) ∧ e.after ≠ e.before ∧
    e.before.batches.get batchId = some b ∧ Permits services alice b ∧
    ∃ w, World.Leads (system services) (start 0) w ∧
      w.shared.history = past ++ e :: later := by
  have hRun : ((World.run (system services) (start 0) admission).bind fun w =>
    w.shared.history.getLast?.map fun e =>
      (e.call.admission, (e.before.files.get fileId).map ConversionFile.status,
        (e.after.files.get fileId).map ConversionFile.status,
        (e.before.batches.get batchId).isSome)) = some (some (batchId, alice, plan), some .ready,
          some .queued, true) := by rfl
  obtain ⟨w, hW, hLast⟩ := Option.bind_eq_some_iff.mp hRun
  obtain ⟨e, hE, hAll⟩ := Option.map_eq_some_iff.mp hLast
  simp only [Prod.mk.injEq] at hAll
  obtain ⟨hCall, hBefore, hAfter, hBatch⟩ := hAll
  obtain ⟨b, hGet⟩ := Option.isSome_iff_exists.mp hBatch
  have hLeads := World.leads_of_run hW
  obtain ⟨past, later, hHistory⟩ := List.append_of_mem (List.mem_of_getLast? hE)
  have hChanged : e.after ≠ e.before := by
    intro hSame
    rw [hSame, hBefore] at hAfter
    cases hAfter
  have hPermits :=
    (admission_permitted hLeads past e later batchId alice plan hHistory hCall hChanged).2 b hGet
  exact ⟨past, e, later, b, hCall, hChanged, hGet, hPermits, w, hLeads, hHistory⟩

end Sample

end Pixaeron.Conversion.Tenants
