import Mathlib.Data.List.Sort

/-! # Ordered queues

A queue that is sorted by a key after every arrival, with a stable sort. An arrival goes behind
everything with a smaller or equal key, so from the place of one element the queue is two piles,
of which an arrival joins one.
-/

namespace Pixaeron.Scheduling

variable {α κ : Type} [LinearOrder κ] (key : α → κ)

def enqueue (w : α) : List α → List α
  | [] => [w]
  | b :: rest => if key b ≤ key w then b :: enqueue w rest else w :: b :: rest

def Ordered (queue : List α) : Prop := queue.Pairwise fun a b => key a ≤ key b

variable {key} {w v : α} {queue ahead behind : List α}

theorem orderedInsert_enqueue {a : α} (h : ∀ b ∈ queue, key a ≤ key b) :
    (enqueue key w queue).orderedInsert (fun a b => key a ≤ key b) a =
      enqueue key w (a :: queue) := by
  cases queue with
  | nil =>
    rw [enqueue, List.orderedInsert_cons, List.orderedInsert_nil, enqueue, enqueue]
  | cons b rest =>
    have hFirst : key a ≤ key b := h b List.mem_cons_self
    by_cases hArrival : key b ≤ key w
    · have hAfter : key a ≤ key w := hFirst.trans hArrival
      rw [enqueue, if_pos hArrival, List.orderedInsert_cons, if_pos hFirst, enqueue, if_pos hAfter,
        enqueue, if_pos hArrival]
    · rw [enqueue, if_neg hArrival, List.orderedInsert_cons]
      by_cases hAfter : key a ≤ key w
      · rw [if_pos hAfter, enqueue, if_pos hAfter, enqueue, if_neg hArrival]
      · rw [if_neg hAfter, List.orderedInsert_cons, if_pos hFirst, enqueue, if_neg hAfter]

theorem insertionSort_concat (h : Ordered key queue) :
    (queue ++ [w]).insertionSort (fun a b => key a ≤ key b) = enqueue key w queue := by
  induction queue with
  | nil => rfl
  | cons a rest ih =>
    obtain ⟨hFirst, hRest⟩ := List.pairwise_cons.mp h
    rw [List.cons_append, List.insertionSort_cons, ih hRest, orderedInsert_enqueue hFirst]

theorem perm_enqueue : (enqueue key w queue).Perm (w :: queue) := by
  induction queue with
  | nil => rfl
  | cons b rest ih =>
    rw [enqueue]
    split
    · exact (ih.cons b).trans (List.Perm.swap w b rest)
    · rfl

theorem mem_enqueue : v ∈ enqueue key w queue ↔ v = w ∨ v ∈ queue := by
  rw [perm_enqueue.mem_iff, List.mem_cons]

theorem Ordered.enqueue (h : Ordered key queue) : Ordered key (enqueue key w queue) := by
  induction queue with
  | nil => exact List.pairwise_singleton _ _
  | cons b rest ih =>
    obtain ⟨hFirst, hRest⟩ := List.pairwise_cons.mp h
    rw [Scheduling.enqueue]
    split
    · next hArrival =>
      refine List.pairwise_cons.mpr ⟨fun c hc => ?_, ih hRest⟩
      rcases mem_enqueue.mp hc with rfl | hc
      · exact hArrival
      · exact hFirst c hc
    · next hArrival =>
      have hBefore : key w ≤ key b := (not_le.mp hArrival).le
      refine List.pairwise_cons.mpr ⟨fun c hc => ?_, h⟩
      rcases List.mem_cons.mp hc with rfl | hc
      · exact hBefore
      · exact hBefore.trans (hFirst c hc)

theorem enqueue_split (h : Ordered key queue) : ∃ ahead behind, queue = ahead ++ behind ∧
    enqueue key w queue = ahead ++ w :: behind ∧ (∀ b ∈ ahead, key b ≤ key w) ∧
    ∀ b ∈ behind, key w < key b := by
  induction queue with
  | nil => exact ⟨[], [], rfl, rfl, by simp, by simp⟩
  | cons b rest ih =>
    obtain ⟨hFirst, hRest⟩ := List.pairwise_cons.mp h
    rw [enqueue]
    split
    · next hArrival =>
      obtain ⟨ahead, behind, rfl, hEnqueue, hAhead, hBehind⟩ := ih hRest
      refine ⟨b :: ahead, behind, rfl, by rw [hEnqueue]; rfl, fun c hc => ?_, hBehind⟩
      rcases List.mem_cons.mp hc with rfl | hc
      · exact hArrival
      · exact hAhead c hc
    · next hArrival =>
      have hBefore : key w < key b := not_le.mp hArrival
      refine ⟨[], b :: rest, rfl, rfl, by simp, fun c hc => ?_⟩
      rcases List.mem_cons.mp hc with rfl | hc
      · exact hBefore
      · exact hBefore.trans_le (hFirst c hc)

theorem enqueue_ahead (h : key v < key w) :
    enqueue key v (ahead ++ w :: behind) = enqueue key v ahead ++ w :: behind := by
  induction ahead with
  | nil => simp [enqueue, not_le.mpr h]
  | cons b rest ih =>
    rw [List.cons_append, enqueue, ih, enqueue]
    split <;> rfl

theorem enqueue_behind (hOrdered : Ordered key (ahead ++ w :: behind)) (h : key w ≤ key v) :
    enqueue key v (ahead ++ w :: behind) = ahead ++ w :: enqueue key v behind := by
  induction ahead with
  | nil => simp [enqueue, h]
  | cons b rest ih =>
    obtain ⟨hFirst, hRest⟩ := List.pairwise_cons.mp hOrdered
    have hBefore : key b ≤ key v := (hFirst w (by simp)).trans h
    rw [List.cons_append, enqueue, if_pos hBefore, ih hRest]
    rfl

theorem length_enqueue : (enqueue key w queue).length = queue.length + 1 := by
  rw [perm_enqueue.length_eq, List.length_cons]

end Pixaeron.Scheduling
