import Pixaeron.Scheduling.OrderedQueue

/-! # The worker's slots

The queue consumer works on a bounded number of files at once. Whoever finds no free slot waits in
a queue that is sorted by priority, and a slot that is released goes to one of the waiters: the
first of the queue, but the last of it on every eighth grant.
-/

namespace Pixaeron.Worker

open Scheduling

def starvationGrantPeriod : Nat := 8

/-- The ticket tells which promise the waiter's grant resolves. Smaller priorities come first. -/
structure Waiter where
  priority : Int
  ticket : Nat
deriving DecidableEq

structure SlotPool where
  active : Nat
  waiters : List Waiter
  grants : Nat
deriving DecidableEq

def isStarvedTurn (grants : Nat) : Bool :=
  grants % starvationGrantPeriod = starvationGrantPeriod - 1

namespace SlotPool

def start : SlotPool := ⟨0, [], 0⟩

/-- Whether the promise is resolved at once is the second component. -/
def acquire (slots : Nat) (pool : SlotPool) (waiter : Waiter) : SlotPool × Bool :=
  if pool.active < slots then ({ pool with active := pool.active + 1 }, true)
  else
    ({ pool with
      waiters := (pool.waiters ++ [waiter]).insertionSort fun a b => a.priority ≤ b.priority },
      false)

/-- The waiter whose promise is resolved is the second component. -/
def release (pool : SlotPool) : SlotPool × Option Waiter :=
  let starvedTurn := isStarvedTurn pool.grants
  match if starvedTurn then pool.waiters.getLast? else pool.waiters.head? with
  | some next =>
    ({ pool with
        waiters := if starvedTurn then pool.waiters.dropLast else pool.waiters.tail
        grants := pool.grants + 1 }, some next)
  | none => ({ pool with active := pool.active - 1 }, none)

end SlotPool

/-! ## Consumers of the pool -/

/-- A slot that has been passed on: by whom, on which turn, to whom and who else was waiting. -/
structure Grant where
  releaser : Nat
  turn : Nat
  waiter : Waiter
  waiting : List Waiter
deriving DecidableEq

/-- The pool with those who hold its slots. Tickets are numbered as `acquire` is called; those who
ever had to wait and the grants are an observer's record. -/
structure Scheduler where
  pool : SlotPool
  holders : List Nat
  arrivals : Nat
  enqueued : List Waiter
  granted : List Grant
deriving DecidableEq

inductive Action where
  | acquire (priority : Int)
  | release (holder : Nat)
deriving DecidableEq

namespace Scheduler

def start : Scheduler := ⟨.start, [], 0, [], []⟩

def acquire (slots : Nat) (s : Scheduler) (priority : Int) : Scheduler :=
  let waiter : Waiter := ⟨priority, s.arrivals⟩
  let (pool, atOnce) := s.pool.acquire slots waiter
  { s with
    pool := pool
    holders := if atOnce then s.arrivals :: s.holders else s.holders
    arrivals := s.arrivals + 1
    enqueued := if atOnce then s.enqueued else s.enqueued ++ [waiter] }

def release (s : Scheduler) (holder : Nat) : Scheduler :=
  let (pool, next) := s.pool.release
  { s with
    pool := pool
    holders := (next.map Waiter.ticket).toList ++ s.holders.erase holder
    granted := s.granted ++ (next.map fun waiter => ⟨holder, s.pool.grants, waiter,
      s.pool.waiters⟩).toList }

/-- Only a holder releases, and is none any more then. -/
def step (slots : Nat) (s : Scheduler) : Action → Option Scheduler
  | .acquire priority => some (s.acquire slots priority)
  | .release holder => if holder ∈ s.holders then some (s.release holder) else none

def run (slots : Nat) (s : Scheduler) (actions : List Action) : Option Scheduler :=
  actions.foldlM (step slots) s

end Scheduler

/-! ## What a step does -/

/-- The waiter comes before the other one: a better priority, or the same and an earlier arrival. -/
def Waiter.Before (w w' : Waiter) : Prop :=
  w.priority < w'.priority ∨ (w.priority = w'.priority ∧ w.ticket < w'.ticket)

section Steps

variable {slots : Nat} {s s' : Scheduler} {priority : Int} {holder : Nat}

theorem ordered_of_before {waiters : List Waiter} (h : waiters.Pairwise Waiter.Before) :
    Ordered Waiter.priority waiters := by
  refine h.imp ?_
  rintro a b (hLess | ⟨hSame, _⟩)
  · exact hLess.le
  · exact hSame.le

variable (slots priority) in
/-- `acquire` takes a free slot or joins the queue. -/
theorem acquire_cases (hOrdered : Ordered Waiter.priority s.pool.waiters) :
    (s.pool.active < slots ∧ s.acquire slots priority =
      { s with
        pool := { s.pool with active := s.pool.active + 1 }
        holders := s.arrivals :: s.holders
        arrivals := s.arrivals + 1 }) ∨
    (slots ≤ s.pool.active ∧ s.acquire slots priority =
      { s with
        pool :=
          { s.pool with waiters := enqueue Waiter.priority ⟨priority, s.arrivals⟩ s.pool.waiters }
        arrivals := s.arrivals + 1
        enqueued := s.enqueued ++ [⟨priority, s.arrivals⟩] }) := by
  unfold Scheduler.acquire SlotPool.acquire
  by_cases hFree : s.pool.active < slots
  · left
    simp [hFree]
  · right
    rw [← insertionSort_concat hOrdered]
    simp [hFree, not_lt.mp hFree]

variable (s holder) in
/-- `release` gives the slot back, or to the first or the last of the queue. -/
theorem release_cases :
    (s.pool.waiters = [] ∧ s.release holder =
      { s with
        pool := { s.pool with active := s.pool.active - 1 }
        holders := s.holders.erase holder }) ∨
    (∃ w rest, s.pool.waiters = w :: rest ∧ isStarvedTurn s.pool.grants = false ∧ s.release holder =
      { s with
        pool := { s.pool with waiters := rest, grants := s.pool.grants + 1 }
        holders := w.ticket :: s.holders.erase holder
        granted := s.granted ++ [⟨holder, s.pool.grants, w, s.pool.waiters⟩] }) ∨
    (∃ w rest, s.pool.waiters = rest ++ [w] ∧ isStarvedTurn s.pool.grants = true ∧
      s.release holder = { s with
        pool := { s.pool with waiters := rest, grants := s.pool.grants + 1 }
        holders := w.ticket :: s.holders.erase holder
        granted := s.granted ++ [⟨holder, s.pool.grants, w, s.pool.waiters⟩] }) := by
  unfold Scheduler.release SlotPool.release
  cases hTurn : isStarvedTurn s.pool.grants with
  | false =>
    cases hWaiters : s.pool.waiters with
    | nil => simp [hWaiters]
    | cons w rest => simp [hWaiters]
  | true =>
    rcases List.eq_nil_or_concat s.pool.waiters with hNone | ⟨rest, w, hWaiters⟩
    · simp [hNone]
    · rw [List.concat_eq_append] at hWaiters
      right
      right
      exact ⟨w, rest, hWaiters, rfl, by simp [hWaiters]⟩

/-! ## The invariant -/

variable (slots s) in
/-- What holds of the pool and of those who use it between any two steps. -/
structure Kept : Prop where
  distinct : s.holders.Nodup
  count : s.holders.length = s.pool.active
  limit : s.pool.active ≤ slots
  busy : s.pool.waiters ≠ [] → s.pool.active = slots
  sorted : s.pool.waiters.Pairwise Waiter.Before
  issued : ∀ t ∈ s.holders, t < s.arrivals
  waiting : ∀ w ∈ s.pool.waiters, w.ticket ∉ s.holders
  arrived : ∀ w ∈ s.enqueued, w.ticket < s.arrivals
  apart : (s.enqueued.map Waiter.ticket).Nodup
  conserved : (s.granted.map Grant.waiter ++ s.pool.waiters).Perm s.enqueued
  turns : s.granted.map Grant.turn = List.range s.pool.grants
  best : ∀ g ∈ s.granted, isStarvedTurn g.turn = false → ∀ w ∈ g.waiting,
    w = g.waiter ∨ g.waiter.Before w

theorem kept_start : Kept slots .start where
  distinct := List.nodup_nil
  count := rfl
  limit := Nat.zero_le slots
  busy h := (h rfl).elim
  sorted := List.Pairwise.nil
  issued _ h := by cases h
  waiting _ h := by cases h
  arrived _ h := by cases h
  apart := List.nodup_nil
  conserved := List.Perm.nil
  turns := rfl
  best _ h := by cases h

namespace Kept

variable (h : Kept slots s)

include h

theorem enqueued_of_waiting {w : Waiter} (hw : w ∈ s.pool.waiters) : w ∈ s.enqueued :=
  h.conserved.subset (List.mem_append_right _ hw)

theorem ticket_lt {w : Waiter} (hw : w ∈ s.pool.waiters) : w.ticket < s.arrivals :=
  h.arrived w (h.enqueued_of_waiting hw)

theorem sorted_enqueue :
    (enqueue Waiter.priority ⟨priority, s.arrivals⟩ s.pool.waiters).Pairwise Waiter.Before := by
  obtain ⟨ahead, behind, hSplit, hEnqueue, hAhead, hBehind⟩ :=
    enqueue_split (w := ⟨priority, s.arrivals⟩) (ordered_of_before h.sorted)
  have hSorted := h.sorted
  rw [hSplit] at hSorted
  obtain ⟨hFirst, hLast, hAcross⟩ := List.pairwise_append.mp hSorted
  rw [hEnqueue]
  refine List.pairwise_append.mpr ⟨hFirst,
    List.pairwise_cons.mpr ⟨fun b hb => .inl (hBehind b hb), hLast⟩, ?_⟩
  intro a ha b hb
  rcases List.mem_cons.mp hb with rfl | hb
  · rcases lt_or_eq_of_le (hAhead a ha) with hLess | hSame
    · exact .inl hLess
    · exact .inr ⟨hSame, h.ticket_lt (hSplit ▸ List.mem_append_left _ ha)⟩
  · exact hAcross a ha b hb

theorem acquire (priority : Int) : Kept slots (s.acquire slots priority) := by
  have hNew : s.arrivals ∉ s.holders := fun hMem => lt_irrefl _ (h.issued _ hMem)
  rcases acquire_cases slots priority (ordered_of_before h.sorted) with ⟨hFree, hAfter⟩ |
    ⟨hFull, hAfter⟩
  · rw [hAfter]
    refine { h with
      distinct := List.nodup_cons.mpr ⟨hNew, h.distinct⟩
      count := by simp [h.count]
      limit := hFree
      busy := fun hSome => absurd (h.busy hSome) (by omega)
      issued := ?_
      waiting := ?_
      arrived := fun w hw => Nat.lt_succ_of_lt (h.arrived w hw) }
    · intro t ht
      rcases List.mem_cons.mp ht with rfl | ht
      · exact Nat.lt_succ_self _
      · exact Nat.lt_succ_of_lt (h.issued t ht)
    · intro w hw hMem
      rcases List.mem_cons.mp hMem with hSame | hMem
      · have hTicket := h.ticket_lt hw
        omega
      · exact h.waiting w hw hMem
  · rw [hAfter]
    refine { h with
      busy := fun _ => by have hLimit := h.limit; dsimp only; omega
      sorted := h.sorted_enqueue
      issued := fun t ht => Nat.lt_succ_of_lt (h.issued t ht)
      waiting := ?_
      arrived := ?_
      apart := ?_
      conserved := ?_ }
    · intro w hw
      rcases mem_enqueue.mp hw with rfl | hw
      · exact hNew
      · exact h.waiting w hw
    · intro w hw
      rcases List.mem_append.mp hw with hw | hw
      · exact Nat.lt_succ_of_lt (h.arrived w hw)
      · rw [List.mem_singleton.mp hw]
        exact Nat.lt_succ_self _
    · rw [List.map_append, List.nodup_append]
      refine ⟨h.apart, List.nodup_singleton _, ?_⟩
      intro t ht t' ht' hSame
      obtain ⟨w, hw, rfl⟩ := List.mem_map.mp ht
      have hTicket := h.arrived w hw
      rw [List.map_singleton, List.mem_singleton] at ht'
      dsimp only at ht'
      omega
    · refine ((perm_enqueue.append_left _).trans ?_).trans (h.conserved.append_right _)
      rw [List.append_assoc]
      exact (List.perm_append_singleton _ _).symm.append_left _

theorem grant {w : Waiter} {rest : List Waiter} (hHolder : holder ∈ s.holders)
    (hWaiters : s.pool.waiters.Perm (w :: rest)) (hRest : rest.Pairwise Waiter.Before)
    (hBest : isStarvedTurn s.pool.grants = false → ∀ w' ∈ s.pool.waiters, w' = w ∨ w.Before w') :
    Kept slots { s with
      pool := { s.pool with waiters := rest, grants := s.pool.grants + 1 }
      holders := w.ticket :: s.holders.erase holder
      granted := s.granted ++ [⟨holder, s.pool.grants, w, s.pool.waiters⟩] } := by
  have hw : w ∈ s.pool.waiters := hWaiters.symm.subset List.mem_cons_self
  have hKept : ∀ w' ∈ rest, w' ∈ s.pool.waiters :=
    fun w' hw' => hWaiters.symm.subset (List.mem_cons_of_mem _ hw')
  have hTickets : (w.ticket :: rest.map Waiter.ticket).Nodup := by
    have hSub : (s.pool.waiters.map Waiter.ticket).Nodup := by
      have hAll := (h.conserved.map Waiter.ticket).nodup_iff.mpr h.apart
      rw [List.map_append] at hAll
      exact (List.nodup_append.mp hAll).2.1
    exact (hWaiters.map Waiter.ticket).nodup_iff.mp hSub
  refine { h with
    distinct :=
      List.nodup_cons.mpr ⟨fun hMem => h.waiting w hw (List.mem_of_mem_erase hMem),
      h.distinct.erase _⟩
    count := ?_
    busy := fun _ => h.busy (List.ne_nil_of_mem hw)
    sorted := hRest
    issued := ?_
    waiting := ?_
    conserved := ?_
    turns := ?_
    best := ?_ }
  · have hPositive := List.length_pos_of_mem hHolder
    rw [List.length_cons, List.length_erase_of_mem hHolder]
    have hCount := h.count
    dsimp only
    omega
  · intro t ht
    rcases List.mem_cons.mp ht with rfl | ht
    · exact h.ticket_lt hw
    · exact h.issued t (List.mem_of_mem_erase ht)
  · intro w' hw' hMem
    rcases List.mem_cons.mp hMem with hSame | hMem
    · exact (List.nodup_cons.mp hTickets).1 (hSame ▸ List.mem_map_of_mem hw')
    · exact h.waiting w' (hKept w' hw') (List.mem_of_mem_erase hMem)
  · rw [List.map_append, List.append_assoc]
    exact (hWaiters.symm.append_left _).trans h.conserved
  · rw [List.map_append, h.turns, List.range_succ]
    rfl
  · intro g hg
    rcases List.mem_append.mp hg with hg | hg
    · exact h.best g hg
    · rw [List.mem_singleton.mp hg]
      exact hBest

theorem release (hHolder : holder ∈ s.holders) : Kept slots (s.release holder) := by
  rcases release_cases s holder with ⟨hNone, hAfter⟩ | ⟨w, rest, hWaiters, hTurn, hAfter⟩ |
    ⟨w, rest, hWaiters, hTurn, hAfter⟩
  · rw [hAfter]
    have hPositive := List.length_pos_of_mem hHolder
    refine { h with
      distinct := h.distinct.erase _
      count := by rw [List.length_erase_of_mem hHolder, h.count]
      limit := (Nat.sub_le _ _).trans h.limit
      busy := fun hSome => (hSome hNone).elim
      issued := fun t ht => h.issued t (List.mem_of_mem_erase ht)
      waiting := fun w hw hMem => h.waiting w hw (List.mem_of_mem_erase hMem) }
  · rw [hAfter]
    have hSorted := h.sorted
    rw [hWaiters] at hSorted
    obtain ⟨hFirst, hRest⟩ := List.pairwise_cons.mp hSorted
    refine h.grant hHolder (by rw [hWaiters]) hRest fun _ w' hw' => ?_
    rw [hWaiters] at hw'
    exact (List.mem_cons.mp hw').imp id (hFirst w')
  · rw [hAfter]
    have hSorted := h.sorted
    rw [hWaiters] at hSorted
    refine h.grant hHolder (by rw [hWaiters]; exact List.perm_append_singleton w rest)
      (List.pairwise_append.mp hSorted).1 fun hRegular => ?_
    rw [hTurn] at hRegular
    cases hRegular

theorem step {action : Action} (hStep : s.step slots action = some s') : Kept slots s' := by
  cases action with
  | acquire priority =>
    cases hStep
    exact h.acquire priority
  | release holder =>
    rw [Scheduler.step] at hStep
    split at hStep
    · next hHolder =>
      cases hStep
      exact h.release hHolder
    · cases hStep

theorem run {actions : List Action} (hRun : s.run slots actions = some s') : Kept slots s' := by
  induction actions generalizing s with
  | nil =>
    cases hRun
    exact h
  | cons action rest ih =>
    obtain ⟨middle, hStep, hRest⟩ := Option.bind_eq_some_iff.mp hRun
    exact ih (h.step hStep) hRest

end Kept

end Steps

/-! ## Safety -/

/-- What the pool owes to those who use it: the slots are never overdrawn, nobody waits while one
is free, no release loses a slot or a waiter, and whoever is granted one on a regular turn comes
first. -/
structure Safe (slots : Nat) (s : Scheduler) : Prop where
  distinct : s.holders.Nodup
  count : s.holders.length = s.pool.active
  limit : s.pool.active ≤ slots
  busy : s.pool.waiters ≠ [] → s.pool.active = slots
  once : (s.granted.map fun g => g.waiter.ticket).Nodup
  onlyByRelease : ∀ priority, (s.acquire slots priority).granted = s.granted
  conserved : (s.granted.map Grant.waiter ++ s.pool.waiters).Perm s.enqueued
  release : ∀ holder s', s.step slots (.release holder) = some s' →
    (s.pool.waiters = [] ∧ s'.pool.waiters = [] ∧ s'.granted = s.granted ∧
      s'.pool.active + 1 = s.pool.active) ∨
    ∃ w, s.pool.waiters.Perm (w :: s'.pool.waiters) ∧
      s'.granted = s.granted ++ [⟨holder, s.pool.grants, w, s.pool.waiters⟩] ∧
        s'.pool.active = s.pool.active
  turns : s.granted.map Grant.turn = List.range s.pool.grants
  best : ∀ g ∈ s.granted, isStarvedTurn g.turn = false → ∀ w ∈ g.waiting,
    w = g.waiter ∨ g.waiter.Before w

theorem slot_pool_safe (slots : Nat) (actions : List Action) (s : Scheduler)
    (h : Scheduler.start.run slots actions = some s) : Safe slots s := by
  have hKept := kept_start.run h
  refine { hKept with once := ?_, onlyByRelease := ?_, release := ?_ }
  · have hAll := (hKept.conserved.map Waiter.ticket).nodup_iff.mpr hKept.apart
    rw [List.map_append, List.map_map] at hAll
    exact (List.nodup_append.mp hAll).1
  · intro priority
    rcases acquire_cases slots priority (ordered_of_before hKept.sorted)
      with ⟨_, hAfter⟩ | ⟨_, hAfter⟩
    · rw [hAfter]
    · rw [hAfter]
  · intro holder s' hStep
    rw [Scheduler.step] at hStep
    split at hStep
    · next hHolder =>
      cases hStep
      rcases release_cases s holder
        with ⟨hNone, hAfter⟩ | ⟨w, rest, hWaiters, _, hAfter⟩ | ⟨w, rest, hWaiters, _, hAfter⟩
      · left
        have hPositive := List.length_pos_of_mem hHolder
        rw [hKept.count] at hPositive
        rw [hAfter]
        exact ⟨hNone, hNone, rfl, by dsimp only; omega⟩
      · right
        rw [hAfter]
        exact ⟨w, by rw [hWaiters], rfl, rfl⟩
      · right
        rw [hAfter]
        exact ⟨w, by rw [hWaiters]; exact List.perm_append_singleton w rest, rfl, rfl⟩
    · cases hStep

/-- One slot: the better priority is served before the earlier arrival. -/
theorem slot_pool_safe_one : Safe 1
    ⟨⟨1, [⟨3, 1⟩], 1⟩, [2], 3, [⟨3, 1⟩, ⟨0, 2⟩], [⟨0, 0, ⟨0, 2⟩, [⟨0, 2⟩, ⟨3, 1⟩]⟩]⟩ :=
  slot_pool_safe 1 [.acquire 0, .acquire 3, .acquire 0, .release 0] _ (by decide)

end Pixaeron.Worker
