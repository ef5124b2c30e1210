import Pixaeron.Conversion.Runs

/-! # Results before their deadlines

A finished result stays until its deadline, unless an admission of the same subject evicts it for
want of room.
-/

namespace Pixaeron.Conversion

open Transactions

/-- The entry is an admission of the file's subject that evicts the file, since the usage it
measured and its incoming bytes exceed the cap together. -/
def EvictedForRoom (e : LogEntry) (f : ConversionFile) : Prop :=
  Evicted e f.id ∧ ∃ batchId ownership snapshot storageBytes measured ready,
    e.call.admission = some (batchId, ownership, snapshot) ∧
      e.before.subjectOf f = some ownership.subject ∧
    snapshot.storageBytes = some storageBytes ∧ e.saw .storageUsed = some measured ∧
      e.saw .claimReady = some ready ∧
    storageBytes < measured.storageUsed ownership.subject e.startedAt +
      ((ready.readyFiles batchId).map fun f => f.inputBytes.getD 0).sum

variable {services : Services} {p : Policy} {e : LogEntry} {f f' : ConversionFile} {now : Nat}
  {w w' : World conversion Call Outcome}

theorem Legal.evictedForRoom (h : Legal services p e) {a : Admission}
    (hAllowed : a.Allowed services p e) (hGet : e.before.files.get f.id = some f)
    (hEvicted : Evicted e f.id) (hMem : f.id ∈ a.evicted) :
    EvictedForRoom e f := by
  have hDone : e.error = none := by
    by_contra hFailed
    exact not_evicted_of_same (h.kept hFailed) f.id hEvicted
  obtain ⟨ownership, hCall, hSubject⟩ := hAllowed.call
  obtain ⟨_, measured, _, hMeasured, _⟩ := hAllowed.overCap (List.ne_nil_of_mem hMem)
  obtain ⟨ready, storageBytes, hReady, hCap, hRoom, _⟩ :=
    (h.checked (by rw [hDone]; simp) _ _ _ hCall).2 measured hMeasured
  obtain ⟨f₁, hGet₁, _, hOwner, _⟩ := hAllowed.evicted f.id hMem
  cases hGet.symm.trans hGet₁
  refine ⟨hEvicted, a.batch.id, ownership, a.snapshot, storageBytes, measured, ready, hCall,
    hSubject ▸ hOwner, hCap,
    hMeasured, hReady, ?_⟩
  by_contra hFits
  exact (hRoom (by omega)).2.2 hDone f.id hEvicted

/-- Before its deadline a result stays as it is, or it is evicted for want of room. -/
theorem Legal.result_stays (h : Legal services p e) (hGet : e.before.files.get f.id = some f)
    (hCompleted : f.status = .completed) (hTime : e.endedAt < f.expiresAt) :
    e.after.files.get f.id = some f ∨ EvictedForRoom e f := by
  have hLive : f.status ∈ liveFileStatuses := by rw [hCompleted]; decide
  rcases h.fileAfter hGet with ⟨f', hGet', hStep⟩ | ⟨_, _, hDead⟩
  · rcases hStep.final (by rw [hCompleted]; decide) with rfl | ⟨_, hExpired⟩
    · exact .inl hGet'
    · have hStatus : f'.status = .expired := by rw [hExpired]; rfl
      obtain ⟨c, hAllowed, hApply⟩ := h.commit
      rcases c.expired_by hAllowed hGet (hApply ▸ hGet') (by rw [hCompleted]; decide) hStatus with
        ⟨a, rfl, hMem⟩ | ⟨_, hOverdue⟩
      · exact .inr (h.evictedForRoom hAllowed hGet ⟨f, f', hGet, hCompleted, hGet', hStatus⟩ hMem)
      · omega
  · exact absurd hLive hDead

theorem result_kept (h : World.Leads (system services) (start now) w)
    (h' : World.Leads (system services) w w') (hf : f ∈ w.shared.db.files.rows)
    (hCompleted : f.status = .completed) (hTime : w'.shared.now < f.expiresAt) :
    (f ∈ w'.shared.db.files.rows ∧ ∃ b, w'.shared.db.batches.get f.batchId = some b) ∨
      ∃ e ∈ w'.shared.history.drop w.shared.history.length, EvictedForRoom e f := by
  obtain ⟨⟨es, hHistory, hPath⟩, _⟩ := (system_rely h h').evolves
  have hNew : w'.shared.history.drop w.shared.history.length = es := by simp [hHistory]
  have hKept :=
    hPath.preserves (P := fun (db : Database) _ => db.files.get f.id = some f ∨ ∃ e ∈ es,
      EvictedForRoom e f)
    (fun _ _ _ _ hSame => hSame) (fun e he hLegal hHere => ?_) (.inl (Table.get_of_mem hf))
  · rw [hNew]
    refine hKept.imp_left fun hGet => ⟨Table.mem_of_get hGet, ?_⟩
    exact (Sound.consistent (system_sound (h.trans h'))).owned f (Table.mem_of_get hGet)
  · rcases hHere with hGet | hEvicted
    · have hSoon : e.endedAt < f.expiresAt := (hPath.endedAt e he).2.trans_lt hTime
      exact (hLegal.result_stays hGet hCompleted hSoon).imp_right fun hEvicted => ⟨e, he, hEvicted⟩
    · exact .inr hEvicted

theorem result_kept_converted : ∃ w w', World.Leads (system Sample.services) (start 0) w ∧
    World.Leads (system Sample.services) w w' ∧ w'.shared.now = 1000 ∧ ∃ f ∈ w.shared.db.files.rows,
      f.status = .completed ∧
      ((f ∈ w'.shared.db.files.rows ∧ ∃ b, w'.shared.db.batches.get f.batchId = some b) ∨
        ∃ e ∈ w'.shared.history.drop w.shared.history.length, EvictedForRoom e f) := by
  have hRun : ((World.run (system Sample.services) (start 0) Sample.conversionRun).map fun w =>
      (w.shared.db.files.rows.map (fun f => (f.id, f.status)), w.shared.now,
        w.shared.db.files.rows.all (1000 < ·.expiresAt))) =
          some ([(Sample.fileId, .completed)], 0, true) := by decide
  obtain ⟨w, hW, h⟩ := Option.map_eq_some_iff.mp hRun
  simp only [Prod.mk.injEq, List.all_eq_true, decide_eq_true_eq] at h
  obtain ⟨hFiles, hNow, hFuture⟩ := h
  have hLater : World.Leads (system Sample.services) w { w with shared := w.shared.tick 1000 } :=
    .single ⟨.tick 1000, rfl⟩
  have hTicked : (w.shared.tick 1000).now = 1000 := by rw [Shared.tick_now, hNow, Nat.zero_add]
  obtain ⟨f, hf, hEq⟩ := List.mem_map.mp (hFiles ▸ List.mem_cons_self)
  obtain ⟨_, hCompleted⟩ := Prod.mk.inj hEq
  refine ⟨w, _, World.leads_of_run hW, hLater, hTicked, f, hf, hCompleted, ?_⟩
  have hTime : (w.shared.tick 1000).now < f.expiresAt := by
    rw [hTicked]
    exact hFuture f hf
  exact result_kept (World.leads_of_run hW) hLater hf hCompleted hTime

end Pixaeron.Conversion
