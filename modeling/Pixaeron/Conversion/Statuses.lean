import Pixaeron.Conversion.Runs

/-! # Batch status and file statuses

In every reachable state each batch agrees with its files, and a terminal file stays terminal.
-/

namespace Pixaeron.Conversion

open Transactions

variable {services : Services} {now : Nat} {w : World conversion Call Outcome}

theorem statuses_agree (h : World.Leads (system services) (start now) w) :
    (∀ b ∈ w.shared.db.batches.rows, Agrees b.status (w.shared.db.statuses b.id)) ∧
    ∀ w', World.Leads (system services) w w' → ∀ f ∈ w.shared.db.files.rows,
      ∀ f' ∈ w'.shared.db.files.rows,
      f'.id = f.id → f.status ∈ terminalFileStatuses →
      f'.status = f.status ∨ f.status = .completed ∧ f'.status = .expired := by
  refine ⟨fun b hb => (Sound.consistent (system_sound h)).agrees b.id b (Table.get_of_mem hb), ?_⟩
  intro w' h' f hf f' hf' hId hTerminal
  have hSteps :=
    rely_file_steps (system_rely h h') (P := fun f f' => f.status ∈ terminalFileStatuses →
    f'.status = f.status ∨ f.status = .completed ∧ f'.status = .expired) (fun _ _ => .inl rfl)
    (fun f f₁ f₂ hSoFar hStep hTerminal => ?_) hf hf' hId
  · exact hSteps hTerminal
  · rcases hSoFar hTerminal with hSame | ⟨hCompleted, hExpired⟩
    · rw [← hSame]
      exact ConversionFileStatus.terminal_moves hStep.progress (hSame ▸ hTerminal)
    · rcases ConversionFileStatus.terminal_moves hStep.progress
        (by rw [hExpired]; decide) with hStill | ⟨hNot, _⟩
      · exact .inr ⟨hCompleted, hStill.trans hExpired⟩
      · cases hExpired.symm.trans hNot

theorem statuses_agree_converted : ∃ w, World.Leads (system Sample.services) (start 0) w ∧
    w.shared.db.files.rows.map (fun f => (f.id, f.status)) = [(Sample.fileId, .completed)] ∧
    ∀ b ∈ w.shared.db.batches.rows, Agrees b.status (w.shared.db.statuses b.id) := by
  obtain ⟨w, hLeads, hFiles, _⟩ := Sample.conversionRun_leads
  exact ⟨w, hLeads, hFiles, (statuses_agree hLeads).1⟩

end Pixaeron.Conversion
