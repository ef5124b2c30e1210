import Pixaeron.Conversion.Verified.Admission
import Pixaeron.Conversion.Verified.Outbox
import Pixaeron.Conversion.Verified.Retention
import Pixaeron.Conversion.Verified.Worker
import Pixaeron.Conversion.Verified.WorkerEvents

/-! # Verified: the system

Every call keeps the discipline, so whatever order their statements run in, the ledger of the
system stays sound.
-/

namespace Pixaeron.Conversion

open Transactions Transactions.Script

variable {services : Services} {p : Policy} {call : Call} {s : Shared conversion Call}

theorem Traffic.tick (h : Traffic p s) (ms : Nat) : Traffic p (s.tick ms) where
  toOutgoing := { h.toOutgoing with }
  toIncoming := { h.toIncoming with }

theorem guarantee_tick (ms : Nat) (h : (ledger services p).Sound s) :
    (discipline services p).Guarantee (fun _ => False) s (s.tick ms) := by
  refine Ledger.guarantee_tick h (h.2.tick ms) (fun r => ?_) fun r hFree => ?_
  · cases r <;> first | exact trivial | exact fun _ _ => rfl
  · cases r <;> first | exact trivial | exact hFree

/-- A worker receives a request that is still in its queue. -/
theorem guarantee_receive {message : Nat} {request : Request} (hSound : (ledger services p).Sound s)
    (hRequest : s.ext.requests[message]? = some request) (hThere : request.deleted = false) :
    (discipline services p).Guarantee (fun _ => False) s
      (s.setExt (s.ext.receive ⟨message, request.body.fileId, request.body.batchId,
        request.receives + 1⟩)) :=
  guarantee_answer hSound (hSound.2.receive hRequest hThere) (receive_grows _) (receive_bodies _)

theorem wp_outcome {α : Type} {script : Script conversion α} {outcome : α → Outcome}
    (hSound : (ledger services p).Sound s)
    (h : Wp (discipline services p) call script (fun _ l _ => AtRest l) (.outside []) s) :
    Wp (discipline services p) call (script.bind fun a => .done (outcome a)) (fun _ _ _ => True)
      (.outside []) s :=
  Wp.bind hSound (h.mono fun _ _ _ _ ⟨_, hRest⟩ => hRest ▸ wp_at_rest fun _ _ => trivial)

theorem spawn_pipeline {ext : Outside} {script : Script conversion Outcome}
    (hSound : (ledger services p).Sound s) (h : pipeline services call s = some (ext, script)) :
    (discipline services p).Guarantee (fun _ => False) s (s.setExt ext) ∧
      Wp (discipline services p) call script (fun _ _ _ => True) (.outside []) (s.setExt ext) := by
  cases call with
  | createBatch input snapshot drawn =>
    unfold pipeline system at h
    dsimp only at h
    split at h <;> cases h
    next hCount => exact ⟨guarantee_none hSound, wp_outcome hSound (wp_createBatch hCount)⟩
  | completeUploads batchId ownership snapshot =>
    cases h
    exact ⟨guarantee_none hSound, wp_outcome hSound (wp_completeUploads hSound)⟩
  | admitReadyFiles batchId ownership snapshot =>
    cases h
    exact ⟨guarantee_none hSound, wp_outcome hSound (wp_admitReadyFiles rfl)⟩
  | remainingToday subject dailyFiles =>
    cases h
    exact ⟨guarantee_none hSound, wp_outcome hSound wp_remainingToday⟩
  | applyEvent event => cases h
  | consume message body =>
    unfold pipeline system at h
    dsimp only at h
    split at h <;> cases h
    next hMessage =>
      refine ⟨guarantee_none hSound, wp_outcome hSound (wp_handleEvent ?_ hSound)⟩
      change (s.ext.events.map EventMessage.body)[message]? = some body
      rw [List.getElem?_map, hMessage, Option.map_some]
  | deliver message body =>
    unfold pipeline system at h
    dsimp only at h
    split at h
    · cases h
    · next request hRequest =>
      split at h <;> cases h
      next hLive =>
        obtain ⟨rfl, hThere⟩ := hLive
        have hGuarantee := guarantee_receive hSound hRequest hThere
        exact ⟨hGuarantee, wp_outcome hGuarantee.inv
          (wp_handleRequest List.mem_concat_self rfl rfl)⟩
  | expireOverdueFiles =>
    cases h
    exact ⟨guarantee_none hSound, wp_outcome hSound (wp_expireOverdueFiles rfl)⟩
  | purgeDeadRows =>
    cases h
    exact ⟨guarantee_none hSound, wp_outcome hSound wp_purgeDeadRows⟩
  | drain rounds =>
    cases h
    exact ⟨guarantee_none hSound, wp_outcome hSound (wp_drain ⟨rounds, rfl⟩ hSound)⟩

theorem verified_pipeline : Verified (discipline services p) (pipeline services) where
  tick _ ms hSound := guarantee_tick ms hSound
  spawn _ _ _ _ hSound h := spawn_pipeline hSound h

theorem verified_system (hOpen : p.closed = false) :
    Verified (discipline services p) (system services) where
  tick _ ms hSound := guarantee_tick ms hSound
  spawn s call ext script hSound h := by
    cases call with
    | applyEvent event =>
      unfold system at h
      dsimp only at h
      split at h <;> cases h
      next hIssued =>
        have hCall : (Call.applyEvent event).handles event := rfl
        have hNever : p.closed = true → False := by
          rw [hOpen]
          exact fun h => by cases h
        exact ⟨guarantee_none hSound,
          wp_outcome hSound ((wp_apply hCall hIssued False.elim hNever hSound).mono
          fun _ _ _ _ hDone => hDone.1.1)⟩
    | _ => exact spawn_pipeline hSound h

end Pixaeron.Conversion
