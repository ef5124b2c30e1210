import Pixaeron.Worker.SlotPool

/-! # Starvation of waiters

The turn against starvation serves the end of the queue, where the newest of the worst priority
stands. A waiter in between moves on only when one of the two sides runs dry, and what decides
that is how many others stood or arrived on each side.
-/

namespace Pixaeron.Worker

open Scheduling

/-! ## The place of a waiter -/

/-- How many stand ahead of a waiter and behind it, and how many grants there have been. -/
structure Standing where
  ahead : Nat
  behind : Nat
  grants : Nat
deriving DecidableEq

namespace Standing

/-- `none` when the waiter itself is served. -/
def step (priority : Int) (p : Standing) : Action → Option Standing
  | .acquire other =>
    if other < priority then some { p with ahead := p.ahead + 1 }
      else some { p with behind := p.behind + 1 }
  | .release _ =>
    if isStarvedTurn p.grants then
      if p.behind = 0 then none else some { p with behind := p.behind - 1, grants := p.grants + 1 }
    else
      if p.ahead = 0 then none else some { p with ahead := p.ahead - 1, grants := p.grants + 1 }

def run (priority : Int) (p : Standing) (actions : List Action) : Option Standing :=
  actions.foldlM (step priority) p

end Standing

/-- The waiter stands in the queue at this place. -/
structure StandsAt (s : Scheduler) (w : Waiter) (p : Standing) : Prop where
  queue : ∃ ahead behind, s.pool.waiters = ahead ++ w :: behind ∧ ahead.length = p.ahead ∧
    behind.length = p.behind
  grants : s.pool.grants = p.grants

section Steps

variable {slots : Nat} {s s' : Scheduler} {w : Waiter} {p : Standing}

theorem StandsAt.waits (h : StandsAt s w p) : w ∈ s.pool.waiters := by
  obtain ⟨⟨ahead, behind, hQueue, _⟩, _⟩ := h
  rw [hQueue]
  simp

/-- A waiter keeps its place until it is served. -/
theorem StandsAt.step (h : StandsAt s w p) (hKept : Kept slots s) (action : Action)
    (hStep : s.step slots action = some s') :
    (∃ p', p.step w.priority action = some p' ∧ StandsAt s' w p') ∨
      (p.step w.priority action = none ∧ w ∉ s'.pool.waiters ∧ ∃ g ∈ s'.granted, g.waiter = w) := by
  obtain ⟨⟨ahead, behind, hQueue, hAhead, hBehind⟩, hGrants⟩ := h
  have hOrdered := ordered_of_before hKept.sorted
  have hApart : w ∉ ahead ∧ w ∉ behind := by
    have hSorted := hKept.sorted
    rw [hQueue] at hSorted
    obtain ⟨_, hLast, hAcross⟩ := List.pairwise_append.mp hSorted
    constructor
    · intro hMem
      rcases hAcross w hMem w List.mem_cons_self with hLess | ⟨_, hLess⟩
      · exact lt_irrefl _ hLess
      · exact lt_irrefl _ hLess
    · intro hMem
      rcases (List.pairwise_cons.mp hLast).1 w hMem with hLess | ⟨_, hLess⟩
      · exact lt_irrefl _ hLess
      · exact lt_irrefl _ hLess
  cases action with
  | acquire priority =>
    left
    cases hStep
    rcases acquire_cases slots priority hOrdered with ⟨hFree, _⟩ | ⟨_, hAfter⟩
    · have hBusy := hKept.busy (by rw [hQueue]; simp)
      omega
    · rw [hAfter, Standing.step]
      by_cases hBetter : priority < w.priority
      · rw [if_pos hBetter]
        refine ⟨_, rfl, ⟨enqueue Waiter.priority ⟨priority, s.arrivals⟩ ahead, behind, ?_, ?_,
          hBehind⟩, hGrants⟩
        · dsimp only
          rw [hQueue, enqueue_ahead hBetter]
        · rw [length_enqueue, hAhead]
      · rw [if_neg hBetter]
        refine ⟨_, rfl, ⟨ahead, enqueue Waiter.priority ⟨priority, s.arrivals⟩ behind, ?_, hAhead,
          ?_⟩, hGrants⟩
        · dsimp only
          rw [hQueue] at hOrdered ⊢
          rw [enqueue_behind hOrdered (not_lt.mp hBetter)]
        · rw [length_enqueue, hBehind]
  | release holder =>
    rw [Scheduler.step] at hStep
    split at hStep
    swap
    · cases hStep
    cases hStep
    rw [Standing.step, ← hGrants]
    rcases release_cases s holder with ⟨hNone, _⟩ | ⟨first, rest, hWaiters, hTurn, hAfter⟩ |
      ⟨last, rest, hWaiters, hTurn, hAfter⟩
    · rw [hQueue] at hNone
      simp at hNone
    · rw [hTurn, if_neg Bool.false_ne_true, hAfter]
      cases ahead with
      | nil =>
        right
        rw [hQueue, List.nil_append, List.cons.injEq] at hWaiters
        obtain ⟨rfl, rfl⟩ := hWaiters
        rw [if_pos (show p.ahead = 0 from hAhead.symm)]
        exact ⟨rfl, hApart.2, ⟨_, List.mem_append_right _ List.mem_cons_self, rfl⟩⟩
      | cons a ahead' =>
        left
        rw [hQueue, List.cons_append, List.cons.injEq] at hWaiters
        obtain ⟨rfl, rfl⟩ := hWaiters
        rw [List.length_cons] at hAhead
        rw [if_neg (by omega)]
        exact ⟨_, rfl, ⟨ahead', behind, rfl, by dsimp only; omega, hBehind⟩, rfl⟩
    · rw [hTurn, if_pos rfl, hAfter]
      rcases List.eq_nil_or_concat behind with rfl | ⟨behind', b, rfl⟩
      · right
        rw [hQueue] at hWaiters
        obtain ⟨rfl, hLast⟩ := List.append_inj' hWaiters rfl
        rw [List.cons.injEq] at hLast
        obtain ⟨rfl, _⟩ := hLast
        rw [if_pos (show p.behind = 0 from hBehind.symm)]
        exact ⟨rfl, hApart.1, ⟨_, List.mem_append_right _ List.mem_cons_self, rfl⟩⟩
      · left
        rw [List.concat_eq_append] at hQueue hBehind
        rw [hQueue, ← List.cons_append, ← List.append_assoc] at hWaiters
        obtain ⟨rfl, _⟩ := List.append_inj' hWaiters rfl
        rw [List.length_append, List.length_singleton] at hBehind
        rw [if_neg (by omega)]
        exact ⟨_, rfl, ⟨ahead, behind', rfl, hAhead, by dsimp only; omega⟩, rfl⟩

theorem granted_of_run {s s' : Scheduler} {actions : List Action}
    (h : s.run slots actions = some s') :
    ∀ g ∈ s.granted, g ∈ s'.granted := by
  induction actions generalizing s with
  | nil =>
    cases h
    exact fun _ hg => hg
  | cons action rest ih =>
    obtain ⟨middle, hStep, hRest⟩ := Option.bind_eq_some_iff.mp h
    intro g hg
    refine ih hRest g ?_
    cases action with
    | acquire priority =>
      cases hStep
      exact hg
    | release holder =>
      rw [Scheduler.step] at hStep
      split at hStep <;> cases hStep
      exact List.mem_append_left _ hg

end Steps

/-! ## When a side runs dry -/

section Dry

variable {priority : Int} {p : Standing} {before actions : List Action}

def isRelease : Action → Bool
  | .acquire _ => false
  | .release _ => true

def isBetterArrival (priority : Int) : Action → Bool
  | .acquire other => other < priority
  | .release _ => false

def isOtherArrival (priority : Int) : Action → Bool
  | .acquire other => priority ≤ other
  | .release _ => false

def releases (actions : List Action) : Nat := actions.countP isRelease

/-- How many of the next turns serve the end of the queue. -/
def starvedTurns (grants : Nat) : Nat → Nat
  | 0 => 0
  | turns + 1 => (if isStarvedTurn grants then 1 else 0) + starvedTurns (grants + 1) turns

/-- The release that follows `before` finds nobody else on the side that it serves: all who stood
or arrived there have been served on earlier turns. -/
def RunsDry (priority : Int) (p : Standing) (before : List Action) : Prop :=
  if isStarvedTurn (p.grants + releases before) then
    p.behind + before.countP (isOtherArrival priority) ≤ starvedTurns p.grants (releases before)
  else
    p.ahead + before.countP (isBetterArrival priority) + starvedTurns p.grants (releases before) ≤
      releases before

theorem isStarvedTurn_iff {grants : Nat} : isStarvedTurn grants = true ↔ grants % 8 = 7 :=
  decide_eq_true_iff

theorem starvedTurns_eq (grants turns : Nat) :
    starvedTurns grants turns = (grants + turns) / 8 - grants / 8 := by
  induction turns generalizing grants with
  | zero => simp [starvedTurns]
  | succ turns ih =>
    rw [starvedTurns, ih]
    by_cases hTurn : grants % 8 = 7
    · rw [if_pos (isStarvedTurn_iff.mpr hTurn)]
      omega
    · rw [if_neg (mt isStarvedTurn_iff.mp hTurn)]
      omega

theorem runsDry_nil :
    RunsDry priority p [] ↔ if isStarvedTurn p.grants then p.behind = 0 else p.ahead = 0 := by
  simp [RunsDry, releases, starvedTurns]

theorem releases_cons_acquire {other : Int} :
    releases (.acquire other :: before) = releases before :=
  List.countP_cons_of_neg Bool.false_ne_true

theorem releases_cons_release {holder : Nat} :
    releases (.release holder :: before) = releases before + 1 :=
  List.countP_cons_of_pos rfl

theorem runsDry_cons {action : Action} {p' : Standing} (hStep : p.step priority action = some p') :
    RunsDry priority p (action :: before) ↔ RunsDry priority p' before := by
  cases action with
  | acquire other =>
    rw [Standing.step] at hStep
    split at hStep
    · next hBetter =>
      cases hStep
      have hAhead : (Action.acquire other :: before).countP (isBetterArrival priority) =
          before.countP (isBetterArrival priority) + 1 :=
            List.countP_cons_of_pos (decide_eq_true hBetter)
      have hBehind : (Action.acquire other :: before).countP (isOtherArrival priority) =
          before.countP (isOtherArrival priority) :=
            List.countP_cons_of_neg (by simpa [isOtherArrival] using hBetter)
      rw [RunsDry, RunsDry, releases_cons_acquire, hAhead, hBehind]
      dsimp only
      rw [show p.ahead + (before.countP (isBetterArrival priority) + 1) =
        p.ahead + 1 + before.countP (isBetterArrival priority) by omega]
    · next hOther =>
      cases hStep
      have hAhead : (Action.acquire other :: before).countP (isBetterArrival priority) =
          before.countP (isBetterArrival priority) :=
            List.countP_cons_of_neg (by simpa [isBetterArrival] using hOther)
      have hBehind : (Action.acquire other :: before).countP (isOtherArrival priority) =
          before.countP (isOtherArrival priority) + 1 :=
            List.countP_cons_of_pos (decide_eq_true (not_lt.mp hOther))
      rw [RunsDry, RunsDry, releases_cons_acquire, hAhead, hBehind]
      dsimp only
      rw [show p.behind + (before.countP (isOtherArrival priority) + 1) =
        p.behind + 1 + before.countP (isOtherArrival priority) by omega]
  | release holder =>
    have hAhead : (Action.release holder :: before).countP (isBetterArrival priority) =
        before.countP (isBetterArrival priority) := List.countP_cons_of_neg Bool.false_ne_true
    have hBehind : (Action.release holder :: before).countP (isOtherArrival priority) =
        before.countP (isOtherArrival priority) := List.countP_cons_of_neg Bool.false_ne_true
    have hTurn : p.grants + (releases before + 1) = p.grants + 1 + releases before := by omega
    rw [RunsDry, RunsDry, releases_cons_release, hAhead, hBehind, starvedTurns, hTurn]
    rw [Standing.step] at hStep
    split at hStep
    · next hStarved =>
      split at hStep
      · cases hStep
      · next hSome =>
        cases hStep
        rw [if_pos hStarved]
        dsimp only
        split
        · constructor <;> intro hDry <;> omega
        · constructor <;> intro hDry <;> omega
    · next hRegular =>
      split at hStep
      · cases hStep
      · next hSome =>
        cases hStep
        rw [if_neg hRegular]
        dsimp only
        split
        · constructor <;> intro hDry <;> omega
        · constructor <;> intro hDry <;> omega

end Dry

/-! ## Within how many grants -/

section Bound

variable {slots : Nat} {s s' : Scheduler} {w : Waiter} {p : Standing} {priority : Int}
  {later : List Action} {bound : Nat}

/-- The waiter gets a slot on one of the first `bound` grants after the given one. -/
def GrantedWithin (s : Scheduler) (w : Waiter) (since bound : Nat) : Prop :=
  ∃ g ∈ s.granted, g.waiter = w ∧ g.turn < since + bound

/-- One of the first `bound` releases finds the side that it serves dry. -/
def DryWithin (priority : Int) (p : Standing) (later : List Action) (bound : Nat) : Prop :=
  ∃ before holder after, later = before ++ .release holder :: after ∧ releases before < bound ∧
    RunsDry priority p before

theorem not_dry_nil : ¬DryWithin priority p [] bound := by
  rintro ⟨before, holder, after, hSplit, _⟩
  simp at hSplit

theorem dry_cons_acquire {other : Int} {p' : Standing}
    (hStep : p.step priority (.acquire other) = some p') :
    DryWithin priority p (.acquire other :: later) bound ↔ DryWithin priority p' later bound := by
  constructor
  · rintro ⟨before, holder, after, hSplit, hBound, hDry⟩
    cases before with
    | nil => simp at hSplit
    | cons first before =>
      rw [List.cons_append, List.cons.injEq] at hSplit
      obtain ⟨rfl, rfl⟩ := hSplit
      rw [releases_cons_acquire] at hBound
      exact ⟨before, holder, after, rfl, hBound, (runsDry_cons hStep).mp hDry⟩
  · rintro ⟨before, holder, after, rfl, hBound, hDry⟩
    exact ⟨.acquire other :: before, holder, after, rfl,
      by rwa [releases_cons_acquire], (runsDry_cons hStep).mpr hDry⟩

theorem dry_cons_release {holder : Nat} {p' : Standing}
    (hStep : p.step priority (.release holder) = some p') :
    DryWithin priority p (.release holder :: later) (bound + 1) ↔
      DryWithin priority p' later bound := by
  constructor
  · rintro ⟨before, other, after, hSplit, hBound, hDry⟩
    cases before with
    | nil =>
      rw [runsDry_nil] at hDry
      rw [Standing.step] at hStep
      split at hStep
      · next hStarved =>
        rw [if_pos hStarved] at hDry
        rw [if_pos hDry] at hStep
        cases hStep
      · next hRegular =>
        rw [if_neg hRegular] at hDry
        rw [if_pos hDry] at hStep
        cases hStep
    | cons first before =>
      rw [List.cons_append, List.cons.injEq] at hSplit
      obtain ⟨rfl, rfl⟩ := hSplit
      rw [releases_cons_release] at hBound
      exact ⟨before, other, after, rfl, by omega, (runsDry_cons hStep).mp hDry⟩
  · rintro ⟨before, other, after, rfl, hBound, hDry⟩
    exact ⟨.release holder :: before, other, after, rfl, by rw [releases_cons_release]; omega,
      (runsDry_cons hStep).mpr hDry⟩

theorem dry_of_served {holder : Nat} (hStep : p.step priority (.release holder) = none)
    (hBound : 0 < bound) :
    DryWithin priority p (.release holder :: later) bound := by
  refine ⟨[], holder, later, rfl, hBound, runsDry_nil.mpr ?_⟩
  rw [Standing.step] at hStep
  split at hStep
  · next hStarved =>
    rw [if_pos hStarved]
    by_contra hSome
    rw [if_neg hSome] at hStep
    cases hStep
  · next hRegular =>
    rw [if_neg hRegular]
    by_contra hSome
    rw [if_neg hSome] at hStep
    cases hStep

theorem Kept.not_granted (hKept : Kept slots s) (hWaits : w ∈ s.pool.waiters) :
    ∀ g ∈ s.granted, g.waiter ≠ w := by
  intro g hg hSame
  have hAll := (hKept.conserved.map Waiter.ticket).nodup_iff.mpr hKept.apart
  rw [List.map_append, List.nodup_append] at hAll
  exact hAll.2.2 g.waiter.ticket (List.mem_map_of_mem (List.mem_map_of_mem hg)) w.ticket
    (List.mem_map_of_mem hWaits)
    (by rw [hSame])

theorem Kept.grant_unique (hKept : Kept slots s) {g g' : Grant} (hg : g ∈ s.granted)
    (hg' : g' ∈ s.granted) (hSame : g.waiter = g'.waiter) : g = g' := by
  have hAll := (hKept.conserved.map Waiter.ticket).nodup_iff.mpr hKept.apart
  rw [List.map_append, List.nodup_append, List.map_map] at hAll
  exact List.inj_on_of_nodup_map hAll.1 hg hg' (congrArg Waiter.ticket hSame)

theorem StandsAt.granted_iff (h : StandsAt s w p) (hKept : Kept slots s)
    (hRun : s.run slots later = some s') :
    GrantedWithin s' w p.grants bound ↔ DryWithin w.priority p later bound := by
  induction later generalizing s p bound with
  | nil =>
    cases hRun
    refine iff_of_false ?_ not_dry_nil
    rintro ⟨g, hg, hSame, _⟩
    exact hKept.not_granted h.waits g hg hSame
  | cons action rest ih =>
    obtain ⟨middle, hStep, hRest⟩ := Option.bind_eq_some_iff.mp hRun
    have hKept' := hKept.step hStep
    have hWaits := h.waits
    rcases h.step hKept _ hStep with ⟨p', hPlace, hStands⟩ | ⟨hPlace, hGone, g, hg, hSame⟩
    · have hNext := @ih _ _ bound hStands hKept' hRest
      cases action with
      | acquire other =>
        rw [dry_cons_acquire hPlace, ← hNext]
        have hGrants : p'.grants = p.grants := by
          rw [Standing.step] at hPlace
          split at hPlace <;> cases hPlace <;> rfl
        rw [hGrants]
      | release holder =>
        have hGrants : p'.grants = p.grants + 1 := by
          rw [Standing.step] at hPlace
          split at hPlace <;> split at hPlace <;> cases hPlace <;> rfl
        cases bound with
        | zero =>
          refine iff_of_false ?_ ?_
          · rintro ⟨g, hg, hSame, hTurn⟩
            exact hNext.not.mpr (fun ⟨_, _, _, _, hNone, _⟩ => Nat.not_lt_zero _ hNone)
              ⟨g, hg, hSame, by omega⟩
          · rintro ⟨_, _, _, _, hNone, _⟩
            exact Nat.not_lt_zero _ hNone
        | succ bound =>
          rw [dry_cons_release hPlace, ← ih hStands hKept' hRest, hGrants]
          unfold GrantedWithin
          rw [show p.grants + 1 + bound = p.grants + (bound + 1) by omega]
    · cases action with
      | acquire other =>
        rw [Standing.step] at hPlace
        split at hPlace <;> cases hPlace
      | release holder =>
        have hTurn : g.turn = p.grants := by
          rw [Scheduler.step] at hStep
          split at hStep
          swap
          · cases hStep
          cases hStep
          rcases List.mem_append.mp hg with hOld | hNew
          · exact absurd hSame (hKept.not_granted hWaits g hOld)
          · obtain ⟨next, _, rfl⟩ := Option.map_eq_some_iff.mp (Option.mem_toList.mp hNew)
            exact h.grants
        have hLast := granted_of_run hRest g hg
        constructor
        · rintro ⟨g', hg', hSame', hTurn'⟩
          have hEq := (hKept'.run hRest).grant_unique hLast hg' (hSame.trans hSame'.symm)
          refine dry_of_served hPlace ?_
          rw [← hEq, hTurn] at hTurn'
          omega
        · rintro ⟨_, _, _, _, hBound, _⟩
          exact ⟨g, hLast, hSame, by omega⟩

/-- The place of a waiter that enters the queue. -/
def entering (s : Scheduler) (priority : Int) : Standing where
  ahead := s.pool.waiters.countP fun w => w.priority ≤ priority
  behind := s.pool.waiters.countP fun w => priority < w.priority
  grants := s.pool.grants

variable (priority) in
theorem standsAt_entering (hKept : Kept slots s) (hFull : slots ≤ s.pool.active) :
    StandsAt (s.acquire slots priority) ⟨priority, s.arrivals⟩ (entering s priority) := by
  have hOrdered := ordered_of_before hKept.sorted
  rcases acquire_cases slots priority hOrdered with ⟨hFree, _⟩ | ⟨_, hAfter⟩
  · omega
  obtain ⟨ahead, behind, hSplit, hEnqueue, hAhead, hBehind⟩ :=
    enqueue_split (w := ⟨priority, s.arrivals⟩) hOrdered
  rw [hAfter]
  refine ⟨⟨ahead, behind, hEnqueue, ?_, ?_⟩, rfl⟩
  · have hFirst : ahead.countP (fun w => w.priority ≤ priority) = ahead.length :=
      List.countP_eq_length.mpr fun w hw => decide_eq_true (hAhead w hw)
    have hLast : behind.countP (fun w => w.priority ≤ priority) = 0 :=
      List.countP_eq_zero.mpr fun w hw => by simpa using hBehind w hw
    show ahead.length = s.pool.waiters.countP _
    rw [hSplit, List.countP_append, hFirst, hLast, Nat.add_zero]
  · have hFirst : ahead.countP (fun w => priority < w.priority) = 0 :=
      List.countP_eq_zero.mpr fun w hw => by simpa using hAhead w hw
    have hLast : behind.countP (fun w => priority < w.priority) = behind.length :=
      List.countP_eq_length.mpr fun w hw => decide_eq_true (hBehind w hw)
    show behind.length = s.pool.waiters.countP _
    rw [hSplit, List.countP_append, hFirst, hLast, Nat.zero_add]

theorem exists_release {k : Nat} (h : k < releases later) :
    ∃ before holder after, later = before ++ .release holder :: after ∧ releases before = k := by
  induction later generalizing k with
  | nil => cases h
  | cons action rest ih =>
    cases action with
    | acquire other =>
      rw [releases_cons_acquire] at h
      obtain ⟨before, holder, after, rfl, hCount⟩ := ih h
      exact ⟨.acquire other :: before, holder, after, rfl, by rw [releases_cons_acquire, hCount]⟩
    | release holder =>
      rw [releases_cons_release] at h
      cases k with
      | zero => exact ⟨[], holder, rest, rfl, rfl⟩
      | succ k =>
        obtain ⟨before, other, after, rfl, hCount⟩ := ih (Nat.lt_of_succ_lt_succ h)
        exact ⟨.release holder :: before, other, after, rfl, by rw [releases_cons_release, hCount]⟩

theorem countP_eq_zero_of_append {q : Action → Bool} {before after : List Action}
    (h : (before ++ after).countP q = 0) : before.countP q = 0 := by
  rw [List.countP_append] at h
  omega

theorem dry_of_one_sided (hOne : later.countP (isBetterArrival priority) = 0 ∨
      later.countP (isOtherArrival priority) = 0)
    (hEnough : starvationGrantPeriod * (p.ahead + p.behind + 1) ≤ releases later) :
    DryWithin priority p later (starvationGrantPeriod * (p.ahead + p.behind + 1)) := by
  have hPeriod : starvationGrantPeriod = 8 := rfl
  rw [hPeriod] at hEnough ⊢
  rcases hOne with hBetter | hOther
  · -- The next regular turn after as many rounds as stood ahead.
    let k := if isStarvedTurn (p.grants + 8 * p.ahead) then 8 * p.ahead + 1 else 8 * p.ahead
    have hk : k ≤ 8 * p.ahead + 1 := by dsimp only [k]; split <;> omega
    have hRegular : ¬isStarvedTurn (p.grants + k) = true := by
      rw [isStarvedTurn_iff]
      dsimp only [k]
      split
      · next hTurn =>
        rw [isStarvedTurn_iff] at hTurn
        omega
      · next hTurn =>
        rw [isStarvedTurn_iff] at hTurn
        exact hTurn
    have hLeast : 8 * p.ahead ≤ k := by dsimp only [k]; split <;> omega
    obtain ⟨before, holder, after, rfl, hCount⟩ := exists_release (show k < releases later by omega)
    refine ⟨before, holder, after, rfl, by omega, ?_⟩
    rw [RunsDry, hCount, if_neg hRegular, countP_eq_zero_of_append hBetter, starvedTurns_eq]
    omega
  · -- The next turn against starvation after as many rounds as stood behind.
    let k := 8 * p.behind + (7 - (p.grants % 8))
    have hStarved : isStarvedTurn (p.grants + k) = true := by
      rw [isStarvedTurn_iff]
      dsimp only [k]
      omega
    have hk : k ≤ 8 * p.behind + 7 := by dsimp only [k]; omega
    obtain ⟨before, holder, after, rfl, hCount⟩ := exists_release (show k < releases later by omega)
    refine ⟨before, holder, after, rfl, by omega, ?_⟩
    rw [RunsDry, hCount, if_pos hStarved, countP_eq_zero_of_append hOther, starvedTurns_eq]
    dsimp only [k]
    omega

end Bound

/-! ## Starvation -/

/-- A waiter is granted a slot within a number of grants if and only if, on one of them, the side
that is served has run dry; which it has within eight rounds for each who stood in the queue, as
long as arrivals join one side only. -/
theorem granted_within_iff (slots : Nat) (actions : List Action) (s : Scheduler)
    (h : Scheduler.start.run slots actions = some s) (priority : Int)
    (hFull : slots ≤ s.pool.active) (later : List Action) (s' : Scheduler)
    (hLater : (s.acquire slots priority).run slots later = some s') :
    (∀ bound, GrantedWithin s' ⟨priority, s.arrivals⟩ s.pool.grants bound ↔
      DryWithin priority (entering s priority) later bound) ∧
    (later.countP (isBetterArrival priority) = 0 ∨ later.countP (isOtherArrival priority) = 0 →
      starvationGrantPeriod * (s.pool.waiters.length + 1) ≤ releases later →
      GrantedWithin s' ⟨priority, s.arrivals⟩ s.pool.grants
        (starvationGrantPeriod * (s.pool.waiters.length + 1))) := by
  have hKept := kept_start.run h
  have hIff : ∀ bound, GrantedWithin s' ⟨priority, s.arrivals⟩ s.pool.grants bound ↔
      DryWithin priority (entering s priority) later bound := fun bound =>
    (standsAt_entering priority hKept hFull).granted_iff (hKept.acquire priority) hLater
  refine ⟨hIff, fun hOne hEnough => (hIff _).mpr ?_⟩
  have hAll : (entering s priority).ahead + (entering s priority).behind =
    s.pool.waiters.length := by
    rw [entering, List.length_eq_countP_add_countP (fun w : Waiter => w.priority ≤ priority)
      (l := s.pool.waiters)]
    simp
  rw [← hAll] at hEnough ⊢
  exact dry_of_one_sided hOne hEnough

/-- Before each of sixteen releases of the only slot, a waiter arrives that is better than the one
who waits. -/
def crowd : List Action :=
  [0, 1, 3, 4, 5, 6, 7, 8, 2, 9, 10, 11, 12, 13, 14, 15].flatMap fun holder =>
    [.acquire 4, .release holder]

/-- One waiter is there already. The next one is served on the first turn of the end of the queue,
and not before. -/
theorem granted_within_iff_crowd : ∃ s s', Scheduler.start.run 1 [.acquire 0, .acquire 3] = some s ∧
    (s.acquire 1 5).run 1 crowd = some s' ∧ GrantedWithin s' ⟨5, s.arrivals⟩ s.pool.grants 16 ∧
    (∀ bound, GrantedWithin s' ⟨5, s.arrivals⟩ s.pool.grants bound ↔
      DryWithin 5 (entering s 5) crowd bound) ∧
    ¬ DryWithin 5 (entering s 5) crowd 7 := by
  have hRun : ((Scheduler.start.run 1 [.acquire 0, .acquire 3]).bind fun s =>
    ((s.acquire 1 5).run 1 crowd).map fun s' =>
      (s.pool.active, s.pool.waiters.length,
        s'.granted.filter fun g => g.waiter = ⟨5, s.arrivals⟩ ∧ g.turn < s.pool.grants + 7)) =
      some (1, 1, []) := by decide
  obtain ⟨s, hS, hRun⟩ := Option.bind_eq_some_iff.mp hRun
  obtain ⟨s', hLater, hFacts⟩ := Option.map_eq_some_iff.mp hRun
  simp only [Prod.mk.injEq, List.filter_eq_nil_iff, decide_eq_true_eq] at hFacts
  obtain ⟨hActive, hWaiting, hNotYet⟩ := hFacts
  obtain ⟨hIff, hFair⟩ := granted_within_iff 1 _ s hS 5 hActive.ge crowd s' hLater
  rw [hWaiting] at hFair
  refine ⟨s, s', hS, hLater, hFair (.inr (by decide)) (by decide), hIff, fun hDry => ?_⟩
  obtain ⟨g, hg, hEarly⟩ := (hIff 7).mpr hDry
  exact hNotYet g hg hEarly

section Starving

variable {slots : Nat} {s s' : Scheduler} {w : Waiter} {p : Standing}

theorem StandsAt.round (h : StandsAt s w p) (hKept : Kept slots s) (hSlots : 0 < slots) :
    ∃ holder s' p', s.run slots [.acquire (w.priority - 1), .acquire w.priority,
      .release holder] = some s' ∧
      StandsAt s' w p' := by
  have hBetter : w.priority - 1 < w.priority := by omega
  have hKept₁ := hKept.acquire (w.priority - 1)
  have hKept₂ := hKept₁.acquire w.priority
  have h₁ : StandsAt (s.acquire slots (w.priority - 1)) w { p with ahead := p.ahead + 1 } := by
    rcases h.step hKept (.acquire (w.priority - 1)) rfl with ⟨p', hPlace, hStands⟩ | ⟨hPlace, _⟩
    · rw [Standing.step, if_pos hBetter] at hPlace
      cases hPlace
      exact hStands
    · rw [Standing.step, if_pos hBetter] at hPlace
      cases hPlace
  have h₂ : StandsAt ((s.acquire slots (w.priority - 1)).acquire slots w.priority) w
      { p with ahead := p.ahead + 1, behind := p.behind + 1 } := by
    rcases h₁.step hKept₁ (.acquire w.priority) rfl with ⟨p', hPlace, hStands⟩ | ⟨hPlace, _⟩
    · rw [Standing.step, if_neg (lt_irrefl _)] at hPlace
      cases hPlace
      exact hStands
    · rw [Standing.step, if_neg (lt_irrefl _)] at hPlace
      cases hPlace
  have hHolders : ((s.acquire slots (w.priority - 1)).acquire slots w.priority).holders ≠ [] := by
    have hBusy := hKept₂.busy (List.ne_nil_of_mem h₂.waits)
    have hCount := hKept₂.count
    intro hNone
    rw [hNone, List.length_nil] at hCount
    omega
  obtain ⟨holder, hHolder⟩ := List.exists_mem_of_ne_nil _ hHolders
  have hRelease : ((s.acquire slots (w.priority - 1)).acquire slots w.priority).step slots
    (.release holder) =
      some (((s.acquire slots (w.priority - 1)).acquire slots w.priority).release holder) :=
        if_pos hHolder
  rcases h₂.step hKept₂ _ hRelease with ⟨p', _, hStands⟩ | ⟨hPlace, _⟩
  · refine ⟨holder, _, p', ?_, hStands⟩
    simp only [Scheduler.run, List.foldlM_cons, List.foldlM_nil, Scheduler.step,
      Option.bind_eq_bind, Option.bind_some]
    rw [if_pos hHolder]
    rfl
  · rw [Standing.step] at hPlace
    split at hPlace <;> simp at hPlace

theorem run_append {first rest : List Action} (h : s.run slots first = some s') :
    s.run slots (first ++ rest) = s'.run slots rest := by
  unfold Scheduler.run at h ⊢
  rw [List.foldlM_append, h]
  rfl

theorem StandsAt.starves (h : StandsAt s w p) (hKept : Kept slots s) (hSlots : 0 < slots)
    (rounds : Nat) :
    ∃ later s' p', s.run slots later = some s' ∧ releases later = rounds ∧ StandsAt s' w p' := by
  induction rounds generalizing s p with
  | zero => exact ⟨[], s, p, rfl, rfl, h⟩
  | succ rounds ih =>
    obtain ⟨holder, middle, p', hRound, hStands⟩ := h.round hKept hSlots
    obtain ⟨later, s', p'', hRun, hCount, hLast⟩ := ih hStands (hKept.run hRound)
    refine ⟨_ ++ later, s', p'', (run_append hRound).trans hRun, ?_, hLast⟩
    have hFirst : releases [.acquire (w.priority - 1), .acquire w.priority, .release holder] = 1 :=
      rfl
    rw [releases, List.countP_append, ← releases, ← releases, hFirst, hCount, Nat.add_comm]

/-- No bound holds for all arrivals: before every release of the only slot a better waiter and an
equal one arrive. -/
theorem starvation_unbounded :
    ¬∃ bound : Nat → Nat, ∀ slots actions s, Scheduler.start.run slots actions = some s →
    ∀ priority, slots ≤ s.pool.active → ∀ later s',
      (s.acquire slots priority).run slots later = some s' →
      bound s.pool.waiters.length ≤ releases later →
      GrantedWithin s' ⟨priority, s.arrivals⟩ s.pool.grants (bound s.pool.waiters.length) := by
  rintro ⟨bound, hBound⟩
  have hStart : Scheduler.start.run 1 [.acquire 0] = some ⟨⟨1, [], 0⟩, [0], 1, [], []⟩ := by decide
  have hKept := kept_start.run hStart
  have hEnters := standsAt_entering 1 hKept (by decide)
  obtain ⟨later, s', p', hRun, hCount, hStands⟩ :=
    hEnters.starves (hKept.acquire 1) Nat.one_pos (bound 0)
  obtain ⟨g, hg, hSame, _⟩ := hBound 1 _ _ hStart 1 (by decide) later s' hRun (by rw [hCount]; rfl)
  exact ((hKept.acquire 1).run hRun).not_granted hStands.waits g hg hSame

end Starving

end Pixaeron.Worker
