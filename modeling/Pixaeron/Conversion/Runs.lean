import Pixaeron.Conversion.Verified.System

/-! # Runs of the system

What the discipline gives for whole runs: the ledger is sound in every reachable state, and what
every entry preserves holds from one reachable state to any later one.
-/

namespace Pixaeron.Conversion

open Transactions

/-- Nothing is assumed of the run. -/
def Policy.free : Policy := ⟨fun _ => none, false, false⟩

theorem Policy.free_assumes (e : LogEntry) : Policy.free.Assumes e :=
  ⟨fun _ _ h => (by cases h), fun h => by cases h⟩

section Runs

variable {services : Services} {p : Policy}
  {program : World.Program conversion Call Outcome} {now : Nat}
  {w w' : World conversion Call Outcome}

theorem meets_of_run (hVerified : Verified (discipline services p) program)
    (h : World.Leads program (start now) w) (hAssumes : ∀ e ∈ w.shared.history, p.Assumes e) :
    World.Meets (discipline services p) w :=
  ((World.meets_idle (sound_start now) (free_start now)).leads hVerified h hAssumes).1

theorem sound_of_run (hVerified : Verified (discipline services p) program)
    (h : World.Leads program (start now) w) (hAssumes : ∀ e ∈ w.shared.history, p.Assumes e) :
    (ledger services p).Sound w.shared :=
  (meets_of_run hVerified h hAssumes).inv

theorem rely_of_run (hVerified : Verified (discipline services p) program)
    (h : World.Leads program (start now) w) (h' : World.Leads program w w')
    (hAssumes : ∀ e ∈ w'.shared.history, p.Assumes e) :
    (discipline services p).Rely (fun _ => False) w.shared w'.shared := by
  have hPrefix := World.leads_history h'
  have hMeets := meets_of_run hVerified h fun e he => hAssumes e (hPrefix.subset he)
  obtain ⟨hMeets', hEvolves⟩ := hMeets.leads hVerified h' hAssumes
  exact ⟨hMeets.inv, hMeets'.inv, hEvolves, fun _ hNo => hNo.elim⟩

theorem system_sound (h : World.Leads (system services) (start now) w) :
    (ledger services .free).Sound w.shared :=
  sound_of_run (verified_system rfl) h fun e _ => Policy.free_assumes e

theorem system_rely (h : World.Leads (system services) (start now) w)
    (h' : World.Leads (system services) w w') :
    (discipline services .free).Rely (fun _ => False) w.shared w'.shared :=
  rely_of_run (verified_system rfl) h h' fun e _ => Policy.free_assumes e

theorem legal_of_sound {s : Shared conversion Call} (h : (ledger services p).Sound s) :
    ∀ e ∈ s.history, Legal services p e ∧ Consistent e.before e.endedAt := by
  intro e he
  refine ⟨h.1.legal e he, @consistent_of_reached services p _ _ ?_⟩
  exact Ledger.reached_entries ⟨[], .rest le_rfl⟩ h.1 e he

theorem path_of_sound {s : Shared conversion Call} (h : (ledger services p).Sound s) :
    Path (fun e : LogEntry => Legal services p e ∧
      Consistent e.before e.endedAt) .initial 0 s.history s.db s.now :=
  h.1.mono (legal_of_sound h)

theorem system_legal (h : World.Leads (system services) (start now) w) :
    ∀ e ∈ w.shared.history, Legal services .free e ∧ Consistent e.before e.endedAt :=
  legal_of_sound (system_sound h)

theorem system_path (h : World.Leads (system services) (start now) w) :
    Path (fun e : LogEntry => Legal services .free e ∧ Consistent e.before e.endedAt) .initial 0
      w.shared.history w.shared.db w.shared.now :=
  path_of_sound (system_sound h)

theorem rely_file_steps {s s' : Shared conversion Call} {held : Resource → Prop}
    {P : ConversionFile → ConversionFile → Prop} (h : (discipline services p).Rely held s s')
    (hRefl : ∀ f, P f f) (hStep : ∀ f f₁ f₂, P f f₁ → FileStep f₁ f₂ → P f f₂)
    {f f' : ConversionFile} (hf : f ∈ s.db.files.rows) (hf' : f' ∈ s'.db.files.rows)
    (hId : f'.id = f.id) : P f f' := by
  have hIssued : f.id ∈ s.db.issued := (Sound.consistent h.before).issuedFiles f hf
  have hAll : f.id ∈ s'.db.issued ∧ ∀ f₁, s'.db.files.get f.id = some f₁ → P f f₁ := by
    refine rely_preserves h (P := fun db => f.id ∈ db.issued ∧ ∀ f₁,
      db.files.get f.id = some f₁ → P f f₁)
      (fun e hLegal _ _ _ _ hHere => ⟨hLegal.issued hHere.1, fun f₂ hf₂ => ?_⟩) ⟨hIssued,
        fun f₁ hf₁ => ?_⟩
    · obtain ⟨f₁, hf₁, hFileStep⟩ := hLegal.of_issued hHere.1 hf₂
      exact hStep f f₁ f₂ (hHere.2 f₁ hf₁) hFileStep
    · rw [Table.get_of_mem hf, Option.some.injEq] at hf₁
      exact hf₁ ▸ hRefl f
  exact hAll.2 f' (hId ▸ Table.get_of_mem hf')

end Runs

/-! ## One conversion

A batch of one file of alice's, used where a run is to be looked at.
-/

namespace Sample

def services : Services := ⟨id, fun _ => "AAAAAAAAAAAAAAAAAAAAAAAAAAAAAAAAAAAAAAAAAAA=", 1000⟩

def plan : EntitlementSnapshot := ⟨.free, 1, 10, 1000, some 10, 1, 48, some 100⟩

def batchId : Uuid := ⟨"b", by decide, by decide⟩

def fileId : Uuid := ⟨"f", by decide, by decide⟩

def alice : BatchOwnership := ⟨"alice", none⟩

def runs (sid steps : Nat) : List (Action conversion Call) := List.replicate steps (.run sid)

/-- The batch is created, its upload of 40 bytes is found, and the file is admitted. -/
def admission : List (Action conversion Call) :=
  [.spawn 0 (.createBatch ⟨"alice", false, "key", 1, .lossy, .medium, none⟩ plan ⟨batchId, [fileId],
    ""⟩), .run 0, .spawn 1 (.completeUploads batchId alice plan), .run 1, .run 1,
    .answer 1 (.headOf fileId (some (some ⟨40, "etag", none⟩)))] ++ runs 1 14

def converted : CompletedOutcome :=
  ⟨.saved, "jpeg", 1, outputObjectKey batchId fileId 1, 30, "sum", "jpeg", 4, 4, none⟩

/-- After its admission the file is started and converted. -/
def conversionRun : List (Action conversion Call) :=
  admission ++ [.spawn 2 (.applyEvent ⟨fileId, batchId, 1, .started⟩)] ++ runs 2 2 ++
    [.spawn 3 (.applyEvent ⟨fileId, batchId, 1, .result (.completed converted)⟩),
      .answer 3 (.head (some ⟨30, "etag", some "sum"⟩))] ++ runs 3 7

theorem conversionRun_leads : ∃ w, World.Leads (system services) (start 0) w ∧
    w.shared.db.files.rows.map (fun f => (f.id, f.status)) = [(fileId, .completed)] ∧
    w.shared.db.batches.rows.map (·.status) = [.completed] ∧ w.shared.history.length = 9 := by
  have hRun : ((World.run (system services) (start 0) conversionRun).map fun w =>
      (w.shared.db.files.rows.map (fun f => (f.id, f.status)),
        w.shared.db.batches.rows.map (·.status),
        w.shared.history.length)) = some ([(fileId, .completed)], [.completed], 9) := by decide
  obtain ⟨w, hW, h⟩ := Option.map_eq_some_iff.mp hRun
  simp only [Prod.mk.injEq] at h
  exact ⟨w, World.leads_of_run hW, h.1, h.2.1, h.2.2⟩

end Sample

end Pixaeron.Conversion
