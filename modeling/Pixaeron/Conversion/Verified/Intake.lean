import Pixaeron.Conversion.Discipline

/-! # Verified: batches and uploads

Creating a batch, looking one up, and verifying its uploads.
-/

namespace Pixaeron.Conversion

open Transactions Transactions.Script

variable {services : Services} {p : Policy} {call : Call} {s : Shared conversion Call}
  {replies : List Reply}

/-- Between transactions. -/
def AtRest (l : Local conversion) : Prop := ∃ replies, l = .outside replies

theorem atRest_outside (replies : List Reply) : AtRest (.outside replies) := ⟨replies, rfl⟩

theorem wp_at_rest {α : Type} {a : α} {Q : α → Local conversion → Shared conversion Call → Prop}
    (h : ∀ s', (discipline services p).Rely (fun _ => False) s s' → Q a (.outside replies) s') :
    Wp (discipline services p) call (.done a) Q (.outside replies) s :=
  Wp.done safe_outside h

theorem wp_require {α : Type} {Q : α → Local conversion → Shared conversion Call → Prop}
    {condition : Prop} [Decidable condition] {error : Failure} {k : Unit → Script conversion α}
    (h : condition → Wp (discipline services p) call (k ()) Q (.outside replies) s) :
    Wp (discipline services p) call ((require condition error).bind k) Q (.outside replies) s := by
  unfold require
  split
  · next hTrue => exact h hTrue
  · exact Wp.fail_outside

theorem wp_assertOwnership {α : Type} {Q : α → Local conversion → Shared conversion Call → Prop}
    {batch : ConversionBatch} {ownership : BatchOwnership} {mismatchCode : AdmissionErrorCode}
    {k : Unit → Script conversion α}
    (h : batch.subject = ownership.subject →
      Wp (discipline services p) call (k ()) Q (.outside replies) s) :
    Wp (discipline services p) call ((assertOwnership services batch ownership mismatchCode).bind k)
      Q
      (.outside replies) s := by
  unfold assertOwnership require
  split
  · next hSubject =>
    simp only [Script.bind_eq, Script.bind_done, Script.pure_eq]
    split
    · exact h hSubject
    · exact h hSubject
    · split
      · exact Wp.fail_outside
      · exact Wp.fail_outside
      · split
        · exact h hSubject
        · exact Wp.fail_outside
  · exact Wp.fail_outside

theorem wp_ask {α : Type} {Q : α → Local conversion → Shared conversion Call → Prop}
    {effect : Reply → Outside → Option Outside} {next : Reply → Script conversion α}
    (hSame : ∀ reply x y, effect reply x = some y → y = x)
    (h : ∀ s' reply, (discipline services p).Rely (fun _ => False) s s' →
      (∃ x, effect reply x = some x) →
      Wp (discipline services p) call (next reply) Q (.outside (replies ++ [reply])) s') :
    Wp (discipline services p) call (.call effect next) Q (.outside replies) s := by
  refine Wp.answer safe_outside fun s' reply ext hRely hEffect => ?_
  obtain rfl := hSame reply s'.ext ext hEffect
  exact ⟨guarantee_none hRely.inv, h s' reply hRely ⟨_, hEffect⟩⟩

/-! ## createBatch -/

theorem wp_createBatch {input : CreateBatchInput} {snapshot : EntitlementSnapshot} {drawn : Drawn}
    (hCount : drawn.fileIds.length = input.fileCount) :
    Wp (discipline services p) (.createBatch input snapshot drawn)
      (createBatch services input snapshot drawn)
      (fun _ l _ => AtRest l) (.outside replies) s := by
  unfold createBatch
  refine wp_require fun hSize => ?_
  unfold planCodeFor
  split
  · next planCode hPlan =>
    refine wp_autocommit (fun _ _ hMem => by cases hMem) fun s' v hRely hDb hNow hClock => ?_
    refine ⟨?_, fun _ => ?_⟩
    · by_cases hAccepts : (s'.db.acceptsBatch input drawn && s'.db.acceptsFiles drawn) = true
      · have hBoth := Bool.and_eq_true_iff.mp hAccepts
        refine ⟨.create input snapshot planCode drawn v.clock, rfl, rfl, le_rfl, ?_, ?_,
          fun h => absurd rfl h, ?_,
          trivial, fun _ h => h.elim⟩
        · exact ⟨rfl, hPlan, hClock, List.ne_nil_of_length_pos (hCount ▸ hSize.1), hCount, hBoth⟩
        · exact if_pos hAccepts
        · exact fun _ => storageChecked_of_call rfl
      · refine ⟨.nothing, ?_⟩
        rw [if_neg hAccepts]
        exact committing_nothing le_rfl fun _ => storageChecked_of_call rfl
    · dsimp only
      split
      · rw [Script.bind_done]
        refine wp_read ⟨nofun, nofun⟩ fun s'' v' _ _ _ _ => ?_
        rw [Script.bind_done]
        split
        · exact Wp.fail_outside
        · exact wp_assertOwnership fun _ => wp_require fun _ => Wp.done safe_outside fun _ _ =>
            atRest_outside _
      · split
        · rw [Script.bind_done]
          exact Wp.fail_outside
        · exact Wp.done safe_outside fun _ _ => atRest_outside _
  · exact Wp.fail_outside

/-! ## Reading -/

theorem wp_remainingToday {subject : String} {dailyFiles : Nat} :
    Wp (discipline services p) call (remainingToday subject dailyFiles) (fun _ l _ => AtRest l)
      (.outside replies) s :=
  wp_read (by decide) fun _ _ _ _ _ _ => wp_at_rest fun _ _ => atRest_outside _

theorem wp_getOwnedBatch {batchId : Uuid} {ownership : BatchOwnership} :
    Wp (discipline services p) call (getOwnedBatch services batchId ownership)
      (fun _ l _ => AtRest l)
      (.outside replies) s := by
  refine wp_read (by decide) fun s' v _ _ _ _ => ?_
  rw [Script.bind_done]
  split
  · exact Wp.fail_outside
  · exact wp_assertOwnership fun _ => wp_at_rest fun _ _ => atRest_outside _

/-! ## verifyUploads -/

theorem answersHead_same {pending : List ConversionFile} (reply : Reply) (x y : Outside)
    (h : answersHead pending reply x = some y) : y = x := by
  unfold answersHead at h
  split at h
  · split at h <;> cases h
    rfl
  · cases h

theorem committing_verify {fileId : Uuid} {stored : StoredObject} :
    Committing services p
      (· ∈ (s.db.files.select fun f => f.id = fileId && f.status = .uploading).map fun f =>
        Resource.file f.id) s
      (statementEntry call replies .verifyUpload s (s.db.changeFiles
        ((s.db.files.select fun f => f.id = fileId && f.status = .uploading).map ConversionFile.id)
          fun f => { f with
            status := .ready
            inputBytes := some stored.bytes
            inputEtag := some stored.etag }))
      (.verify ((s.db.files.select fun f => f.id = fileId && f.status = .uploading).map
        ConversionFile.id) stored) where
  before := rfl
  endedAt := rfl
  started := le_rfl
  allowed := by
    intro id hMem
    obtain ⟨f, hf, rfl⟩ := List.mem_map.mp hMem
    simp only [Table.mem_select, Bool.and_eq_true, decide_eq_true_eq] at hf
    exact ⟨f, Table.get_of_mem hf.1, hf.2.2⟩
  apply := rfl
  kept h := absurd rfl h
  checked _ := by
    refine storageChecked_of_unclaimed rfl rfl (fun id => ?_) (by rintro _ _ _ _ _ ⟨⟩)
    rintro ⟨f, f', hGet, hCompleted, hGet', hExpired⟩
    simp only [statementEntry, Shared.entry, Database.changeFiles] at hGet hGet'
    rw [Table.get_modify, hGet, Option.map_some, Option.some.injEq] at hGet'
    subst hGet'
    split at hExpired
    · cases hExpired
    · cases hCompleted.symm.trans hExpired
  backed := trivial
  held := by
    rintro r ⟨id, hMem, rfl⟩
    obtain ⟨f, hf, rfl⟩ := List.mem_map.mp hMem
    exact List.mem_map_of_mem hf

theorem wp_verifyUploads {unanswered : Nat} {pending : List ConversionFile} {verified : Nat}
    {failure : Option Failure} :
    Wp (discipline services p) call (verifyUploads unanswered pending verified failure)
      (fun _ l _ => AtRest l) (.outside replies) s := by
  induction unanswered generalizing pending verified failure replies s with
  | zero =>
    cases failure with
    | none => exact wp_at_rest fun _ _ => atRest_outside _
    | some failure => exact Wp.fail_outside
  | succ unanswered ih =>
    refine wp_ask answersHead_same fun s' reply _ _ => ?_
    rw [Script.bind_done]
    split
    · refine wp_autocommit (fun v id hMem => ?_) fun s'' v _ hDb _ _ => ⟨?_, fun _ => ih⟩
      · simp at hMem
      · rw [hDb]
        exact ⟨_, committing_verify⟩
    · exact ih
    · exact ih
    · exact Wp.fail_outside

end Pixaeron.Conversion
