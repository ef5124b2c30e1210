import Pixaeron.Conversion.Runs

/-! # The storage cap

While a subject's plan caps its storage and no result is larger than its input, the storage in
use never exceeds the cap.
-/

namespace Pixaeron.Conversion

open Transactions

/-- The subject's plan caps its storage, in every admission of its batches. -/
def Capped (subject : String) (cap : Nat) (e : LogEntry) : Prop :=
  ∀ batchId ownership snapshot, e.call.admission = some (batchId, ownership, snapshot) →
    ownership.subject = subject → snapshot.storageBytes = some cap

/-- Only the storage of one subject is capped. -/
def Policy.capped (subject : String) (cap : Nat) : Policy :=
  ⟨fun other => if other = subject then some cap else none, false, false⟩

variable {services : Services} {p : Policy} {e : LogEntry} {subject : String} {cap now : Nat}
  {w : World conversion Call Outcome}

theorem Policy.capped_assumes (hCapped : Capped subject cap e)
    (hSmall : AcceptsSmallOutputs subject e) :
    (Policy.capped subject cap).Assumes e := by
  refine ⟨fun other cap' hCap => ?_, fun hClean => by cases hClean⟩
  obtain ⟨rfl, hEq⟩ := Option.ite_some_none_eq_some.mp hCap
  exact hEq ▸ ⟨hCapped, hSmall⟩

theorem Database.storageUsed_later {db : Database} {t t' : Nat} (hTime : t ≤ t') :
    db.storageUsed subject t' ≤ db.storageUsed subject t := by
  refine Table.total_le_total fun f _ => ?_
  by_cases hStored : db.stored subject t' f = true
  · have hSooner : db.stored subject t f = true := by
      simp only [stored, Bool.and_eq_true, decide_eq_true_eq] at hStored ⊢
      exact ⟨hStored.1, hTime.trans_lt hStored.2⟩
    rw [if_pos hStored, if_pos hSooner]
  · rw [if_neg hStored]
    exact Nat.zero_le _

/-- An entry leaves the storage within the cap: an admission of the subject has checked it, and
whatever else commits lowers it. -/
theorem Legal.storage_le (h : Legal services p e) (hCons : Consistent e.before e.endedAt)
    (hCap : p.cap subject = some cap) (hSmall : AcceptsSmallOutputs subject e)
    (hHere : e.before.storageUsed subject e.endedAt ≤ cap) :
    e.after.storageUsed subject e.endedAt ≤ cap := by
  obtain ⟨c, hAllowed, hApply⟩ := h.commit
  by_cases hOwn : ∃ a, c = .admission a ∧ a.batch.subject = subject
  · obtain ⟨a, rfl, rfl⟩ := hOwn
    rw [hApply]
    exact (Database.storageUsed_later h.started).trans (hAllowed.cap cap hCap)
  · rw [hApply]
    refine (c.storage_le hCons hAllowed hApply hSmall fun a hAdmit hSame => hOwn
      ⟨a, hAdmit, hSame⟩).trans hHere

theorem storage_capped (h : World.Leads (system services) (start now) w)
    (hCapped : ∀ e ∈ w.shared.history, Capped subject cap e)
    (hSmall : ∀ e ∈ w.shared.history, AcceptsSmallOutputs subject e) :
    w.shared.db.storageUsed subject w.shared.now ≤ cap := by
  have hSound := sound_of_run (p := .capped subject cap) (verified_system rfl) h fun e he =>
    Policy.capped_assumes (hCapped e he) (hSmall e he)
  refine (path_of_sound hSound).preserves (P := fun (db : Database) t =>
    db.storageUsed subject t ≤ cap)
    (fun _ _ _ hTime hHere => (Database.storageUsed_later hTime).trans hHere)
    (fun e he hLegal hHere => hLegal.1.storage_le hLegal.2 (if_pos rfl) (hSmall e he) hHere)
      (Nat.zero_le _)

theorem storage_capped_converted : ∃ w, World.Leads (system Sample.services) (start 0) w ∧
    w.shared.db.storageUsed "alice" w.shared.now = 30 ∧
    w.shared.db.storageUsed "alice" w.shared.now ≤ 100 := by
  have hRun : ((World.run (system Sample.services) (start 0) Sample.conversionRun).map fun w =>
      (w.shared.db.storageUsed "alice" w.shared.now,
        w.shared.history.all fun e => e.call.admission.all fun admission =>
          admission.2.2.storageBytes = some 100,
        w.shared.history.all fun e => e.before.files.rows.all fun f =>
          (e.after.files.get f.id).all fun f' =>
            f'.outputBytes.getD 0 ≤ f.inputBytes.getD 0)) = some (30, true, true) := by decide
  obtain ⟨w, hW, h⟩ := Option.map_eq_some_iff.mp hRun
  simp only [Prod.mk.injEq, List.all_eq_true] at h
  obtain ⟨hUsed, hPlans, hOutputs⟩ := h
  refine ⟨w, World.leads_of_run hW, hUsed,
    storage_capped (World.leads_of_run hW) (fun e he _ _ _ hCall _ => ?_)
    fun e he f f' hGet _ hGet' _ _ => ?_⟩
  · have hPlan := hPlans e he
    rw [hCall] at hPlan
    exact of_decide_eq_true hPlan
  · have hOutput := hOutputs e he f (Table.mem_of_get hGet)
    rw [hGet'] at hOutput
    exact of_decide_eq_true hOutput

end Pixaeron.Conversion
