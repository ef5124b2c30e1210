import Mathlib.Data.List.Perm.Basic
import Mathlib.Order.Lattice

/-! # Registers with sticky values

A register holds the last event it has taken. Events are ordered by their revisions and newer ones
replace older ones, except that some values are sticky: a register that holds one takes only
terminal events, and a register that does not takes every terminal event. Which event is left in
the end may then depend on the order in which they came, and this module says when.
-/

namespace Pixaeron.Registers

/-- `locked` tells whether the value that the register has before any event is sticky. -/
structure Rules (ε ρ : Type) where
  revision : ε → ρ
  terminal : ε → Bool
  sticky : ε → Bool
  locked : Bool
  sticky_of_terminal : ∀ e, terminal e = true → sticky e = true

namespace Rules

variable {ε ρ : Type} [LinearOrder ρ] (R : Rules ε ρ)

def isSticky : Option ε → Bool
  | none => R.locked
  | some e => R.sticky e

/-- The event is newer than what the register holds. -/
def newer (e : ε) : Option ε → Bool
  | none => true
  | some last => decide (R.revision last < R.revision e)

def step (s : Option ε) (e : ε) : Option ε :=
  if (R.terminal e && (!R.isSticky s || R.newer e s)) || (!R.isSticky s && R.newer e s) then
    some e else s

/-- What the register holds once the events of `seen` have come in some order. -/
inductive Holds (seen : List ε) : Option ε → Prop where
  | empty (hOpen : R.locked = false) (hNone : seen = []) : Holds seen none
  | locked (hLocked : R.locked = true)
      (hTerminal : ∀ t ∈ seen, R.terminal t = false) : Holds seen none
  | newest {e : ε} (hOpen : R.locked = false) (hLoose : R.sticky e = false) (hMem : e ∈ seen)
      (hTerminal : ∀ t ∈ seen, R.terminal t = false)
        (hNewest : ∀ e' ∈ seen, R.revision e' ≤ R.revision e) :
      Holds seen (some e)
  | stuck {e : ε} (hFrom : R.locked = true → R.terminal e = true) (hSticky : R.sticky e = true)
      (hMem : e ∈ seen)
      (hNewest : ∀ t ∈ seen, R.terminal t = true →
        R.revision t ≤ R.revision e) : Holds seen (some e)

variable {R} {seen : List ε} {s : Option ε} {e b : ε}

omit [LinearOrder ρ] in
theorem not_terminal (h : R.sticky e = false) : R.terminal e = false := by
  cases hTerminal : R.terminal e with
  | false => rfl
  | true =>
    rw [R.sticky_of_terminal e hTerminal] at h
    cases h

theorem forall_mem_append {p : ε → Prop} (h : ∀ t ∈ seen, p t) (he : p e) :
    ∀ t ∈ seen ++ [e], p t := by
  intro t ht
  rcases List.mem_append.mp ht with hOld | hNew
  · exact h t hOld
  · exact List.mem_singleton.mp hNew ▸ he

theorem Holds.take (hFrom : R.locked = true → R.terminal e = true) (hSticky : R.sticky e = true)
    (hOld : ∀ t ∈ seen, R.terminal t = true → R.revision t ≤ R.revision e) :
    Holds R (seen ++ [e]) (some e) :=
  .stuck hFrom hSticky (by simp) (forall_mem_append hOld fun _ => le_refl _)

theorem Holds.step (h : Holds R seen s) (e : ε) : Holds R (seen ++ [e]) (R.step s e) := by
  have hNo : ∀ {e' : ε}, (∀ t ∈ seen, R.terminal t = false) →
      ∀ t ∈ seen, R.terminal t = true → R.revision t ≤ R.revision e' := by
    intro e' hNone t ht hTerminal
    rw [hNone t ht] at hTerminal
    cases hTerminal
  cases h with
  | empty hLocked hNone =>
    subst hNone
    have hStep : R.step none e = some e := by simp [Rules.step, isSticky, newer, hLocked]
    rw [hStep]
    cases hSticky : R.sticky e with
    | true => exact .take (by simp [hLocked]) hSticky (by simp)
    | false =>
      exact .newest hLocked hSticky (by simp) (by simpa using not_terminal hSticky) (by simp)
  | @newest last hOpen hLast hMem hTerminal hNewest =>
    cases hThis : R.terminal e with
    | true =>
      have hStep : R.step (some last) e = some e := by
        simp [Rules.step, isSticky, newer, hLast, hThis]
      rw [hStep]
      exact .take (fun _ => hThis) (R.sticky_of_terminal e hThis) (hNo hTerminal)
    | false =>
      by_cases hNewer : R.revision last < R.revision e
      · have hStep : R.step (some last) e = some e := by
          simp [Rules.step, isSticky, newer, hLast, hNewer]
        rw [hStep]
        cases hSticky : R.sticky e with
        | true => exact .take (by simp [hOpen]) hSticky (hNo hTerminal)
        | false =>
          exact .newest hOpen hSticky (by simp) (forall_mem_append hTerminal hThis)
            (forall_mem_append (fun e' he' => (hNewest e' he').trans hNewer.le) (le_refl _))
      · have hStep : R.step (some last) e = some last := by
          simp [Rules.step, isSticky, newer, hThis, hNewer]
        rw [hStep]
        exact .newest hOpen hLast (by simp [hMem]) (forall_mem_append hTerminal hThis)
          (forall_mem_append hNewest (not_lt.mp hNewer))
  | locked hLocked hTerminal =>
    cases hThis : R.terminal e with
    | true =>
      have hStep : R.step none e = some e := by simp [Rules.step, newer, hThis]
      rw [hStep]
      exact .take (fun _ => hThis) (R.sticky_of_terminal e hThis) (hNo hTerminal)
    | false =>
      have hStep : R.step none e = none := by simp [Rules.step, isSticky, hThis, hLocked]
      rw [hStep]
      exact .locked hLocked (forall_mem_append hTerminal hThis)
  | @stuck last hFrom hLast hMem hNewest =>
    cases hThis : R.terminal e with
    | true =>
      by_cases hNewer : R.revision last < R.revision e
      · have hStep : R.step (some last) e = some e := by simp [Rules.step, newer, hThis, hNewer]
        rw [hStep]
        exact .take (fun _ => hThis) (R.sticky_of_terminal e hThis) fun t ht hTerminal =>
          (hNewest t ht hTerminal).trans hNewer.le
      · have hStep : R.step (some last) e = some last := by
          simp [Rules.step, isSticky, newer, hLast, hNewer]
        rw [hStep]
        exact .stuck hFrom hLast (by simp [hMem]) (forall_mem_append hNewest fun _ =>
          not_lt.mp hNewer)
    | false =>
      have hStep : R.step (some last) e = some last := by simp [Rules.step, isSticky, hLast, hThis]
      rw [hStep]
      exact .stuck hFrom hLast (by simp [hMem]) (forall_mem_append hNewest fun hTerminal =>
        by rw [hThis] at hTerminal; cases hTerminal)

theorem Holds.foldl (h : Holds R seen s) (l : List ε) : Holds R (seen ++ l) (l.foldl R.step s) := by
  induction l generalizing seen s with
  | nil => simpa using h
  | cons e rest ih =>
    have hRest := ih (h.step e)
    rwa [List.append_assoc, List.singleton_append] at hRest

theorem holds_nil : Holds R [] none := by
  cases h : R.locked with
  | false => exact .empty h rfl
  | true => exact .locked h (by simp)

theorem holds_foldl (l : List ε) : Holds R l (l.foldl R.step none) := holds_nil.foldl l

/-! ## When the order does not matter -/

/-- A sticky event that is not terminal is superseded by a terminal one, or it is the newest of
events of which none is terminal. -/
def Settles (R : Rules ε ρ) (events : List ε) : Prop :=
  R.locked = true ∨ ∀ b ∈ events, R.terminal b = false → R.sticky b = true →
    (∃ t ∈ events, R.terminal t = true ∧ R.revision b < R.revision t) ∨
      ((∀ t ∈ events, R.terminal t = false) ∧ ∀ e ∈ events, e ≠ b → R.revision e < R.revision b)

def Distinct (R : Rules ε ρ) (events : List ε) : Prop :=
  ∀ e ∈ events, ∀ e' ∈ events, R.revision e = R.revision e' → e = e'

theorem Holds.top (h : Holds R seen s) (hSettles : Settles R seen) :
    (s = none ∧ (∀ t ∈ seen, R.terminal t = false) ∧ (R.locked = true ∨ seen = [])) ∨
      ∃ e ∈ seen, s = some e ∧
        ((R.terminal e = true ∧ ∀ t ∈ seen, R.terminal t = true → R.revision t ≤ R.revision e) ∨
          (R.locked = false ∧ (∀ t ∈ seen, R.terminal t = false) ∧ ∀ e' ∈ seen,
            R.revision e' ≤ R.revision e)) := by
  cases h with
  | empty hOpen hNone => exact .inl ⟨rfl, by simp [hNone], .inr hNone⟩
  | locked hLocked hTerminal => exact .inl ⟨rfl, hTerminal, .inl hLocked⟩
  | @newest e hOpen hLoose hMem hTerminal hNewest =>
    exact .inr ⟨e, hMem, rfl, .inr ⟨hOpen, hTerminal, hNewest⟩⟩
  | @stuck e hFrom hSticky hMem hNewest =>
    refine .inr ⟨e, hMem, rfl, ?_⟩
    cases hTerminal : R.terminal e with
    | true => exact .inl ⟨rfl, hNewest⟩
    | false =>
      have hOpen : R.locked = false := by
        cases hLocked : R.locked with
        | false => rfl
        | true =>
          rw [hFrom hLocked] at hTerminal
          cases hTerminal
      have hCases := hSettles.resolve_left (by simp [hOpen]) e hMem hTerminal hSticky
      rcases hCases with ⟨t, ht, hIs, hNewer⟩ | ⟨hNone, hOlder⟩
      · exact absurd hNewer (not_lt.mpr (hNewest t ht hIs))
      · refine .inr ⟨hOpen, hNone, fun e' he' => ?_⟩
        by_cases hEq : e' = e
        · rw [hEq]
        · exact (hOlder e' he' hEq).le

theorem Settles.congr {events : List ε} (h : Settles R events)
    (hSame : ∀ e, e ∈ seen ↔ e ∈ events) : Settles R seen := by
  unfold Settles at h ⊢
  simpa only [hSame] using h

theorem Holds.congr {events : List ε} (h : Holds R events s)
    (hSame : ∀ e, e ∈ seen ↔ e ∈ events) : Holds R seen s := by
  cases h with
  | empty hOpen hNone =>
    exact .empty hOpen (List.eq_nil_iff_forall_not_mem.mpr fun e he => by simp [hSame, hNone] at he)
  | locked hLocked hTerminal => exact .locked hLocked (by simpa only [hSame] using hTerminal)
  | newest hOpen hLoose hMem hTerminal hNewest =>
    exact .newest hOpen hLoose ((hSame _).mpr hMem) (by simpa only [hSame] using hTerminal)
      (by simpa only [hSame] using hNewest)
  | stuck hFrom hSticky hMem hNewest =>
    exact .stuck hFrom hSticky ((hSame _).mpr hMem) (by simpa only [hSame] using hNewest)

theorem eq_of_holds {s' : Option ε} (hDistinct : Distinct R seen) (hSettles : Settles R seen)
    (hs : Holds R seen s) (hs' : Holds R seen s') : s = s' := by
  rcases hs.top hSettles with ⟨rfl, hNo, hWhy⟩ | ⟨e, he, rfl, hTop⟩ <;>
    rcases hs'.top hSettles with ⟨rfl, hNo', hWhy'⟩ | ⟨e', he', rfl, hTop'⟩
  · rfl
  · rcases hTop' with ⟨hTerminal, _⟩ | ⟨hOpen, _, _⟩
    · rw [hNo e' he'] at hTerminal
      cases hTerminal
    · rcases hWhy with hLocked | hNil
      · rw [hOpen] at hLocked
        cases hLocked
      · rw [hNil] at he'
        cases he'
  · rcases hTop with ⟨hTerminal, _⟩ | ⟨hOpen, _, _⟩
    · rw [hNo' e he] at hTerminal
      cases hTerminal
    · rcases hWhy' with hLocked | hNil
      · rw [hOpen] at hLocked
        cases hLocked
      · rw [hNil] at he
        cases he
  · congr 1
    rcases hTop with ⟨hTerminal, hMax⟩ | ⟨_, hNone, hMax⟩
      <;> rcases hTop' with ⟨hTerminal', hMax'⟩ | ⟨_, hNone', hMax'⟩
    · exact hDistinct e he e' he' (le_antisymm (hMax' e he hTerminal) (hMax e' he' hTerminal'))
    · rw [hNone' e he] at hTerminal
      cases hTerminal
    · rw [hNone e' he'] at hTerminal'
      cases hTerminal'
    · exact hDistinct e he e' he' (le_antisymm (hMax' e he) (hMax e' he'))

/-! ## When it does -/

theorem foldl_stuck (hSticky : R.sticky b = true) {l : List ε}
    (hOld : ∀ t ∈ l, R.terminal t = true → R.revision t ≤ R.revision b) :
    l.foldl R.step (some b) = some b := by
  induction l with
  | nil => rfl
  | cons e rest ih =>
    have hStep : R.step (some b) e = some b := by
      cases hTerminal : R.terminal e with
      | false => simp [Rules.step, isSticky, hSticky, hTerminal]
      | true =>
        have hNot : ¬R.revision b < R.revision e := not_lt.mpr (hOld e List.mem_cons_self hTerminal)
        simp [Rules.step, isSticky, newer, hSticky, hNot]
    rw [List.foldl_cons, hStep]
    exact ih fun t ht => hOld t (List.mem_cons_of_mem _ ht)

theorem foldl_terminal {l : List ε} {t : ε} (h : R.terminal t = true) :
    ∃ t', l.foldl R.step (some t) = some t' ∧ R.terminal t' = true := by
  induction l generalizing t with
  | nil => exact ⟨t, rfl, h⟩
  | cons e rest ih =>
    rw [List.foldl_cons]
    cases hTerminal : R.terminal e with
    | false =>
      have hStep : R.step (some t) e = some t := by
        simp [Rules.step, isSticky, R.sticky_of_terminal t h, hTerminal]
      rw [hStep]
      exact ih h
    | true =>
      unfold Rules.step
      split
      · exact ih hTerminal
      · exact ih h

theorem foldl_mono {l : List ε} (b : ε) (hNone : ∀ t ∈ l, R.terminal t = false) :
    ∃ e, l.foldl R.step (some b) = some e ∧ R.revision b ≤ R.revision e := by
  induction l generalizing b with
  | nil => exact ⟨b, rfl, le_refl _⟩
  | cons a rest ih =>
    have hRest : ∀ t ∈ rest, R.terminal t = false := fun t ht => hNone t (List.mem_cons_of_mem _ ht)
    rw [List.foldl_cons]
    unfold Rules.step
    split
    · next hTake =>
      simp only [hNone a List.mem_cons_self, Bool.false_and, Bool.false_or, Bool.and_eq_true, newer,
        decide_eq_true_eq] at hTake
      obtain ⟨e, hEnd, hLe⟩ := ih a hRest
      exact ⟨e, hEnd, hTake.2.le.trans hLe⟩
    · exact ih b hRest

/-- The first event is taken unless the register is locked. -/
theorem step_none (hOpen : R.locked = false) : R.step none e = some e := by
  simp [Rules.step, isSticky, newer, hOpen]

theorem exists_diverging [DecidableEq ε] {events : List ε} (hDistinct : Distinct R events)
    (h : ¬Settles R events) :
    ∃ l l' : List ε, l.Perm events ∧ l'.Perm events ∧
      (l.foldl R.step none).map R.revision ≠ (l'.foldl R.step none).map R.revision := by
  unfold Settles at h
  push Not at h
  obtain ⟨hOpen, b, hb, hLoose, hSticky, hNoNewer, hNotNewest⟩ := h
  have hOpen : R.locked = false := by simpa using hOpen
  have hFirst : (b :: events.erase b).foldl R.step none = some b := by
    rw [List.foldl_cons, step_none hOpen]
    exact foldl_stuck hSticky fun t ht hTerminal => hNoNewer t (List.mem_of_mem_erase ht) hTerminal
  by_cases hAny : ∃ t ∈ events, R.terminal t = true
  · obtain ⟨t, ht, hTerminal⟩ := hAny
    obtain ⟨t', hEnd, hTerminal'⟩ := foldl_terminal (l := events.erase t) hTerminal
    refine ⟨b :: events.erase b, t :: events.erase t, (List.perm_cons_erase hb).symm,
      (List.perm_cons_erase ht).symm, ?_⟩
    have hSecond : (t :: events.erase t).foldl R.step none = some t' := by
      rw [List.foldl_cons, step_none hOpen, hEnd]
    have hMem : t' ∈ events := by
      have hHolds := (holds_foldl (R := R) (t :: events.erase t)).congr fun e =>
        ((List.perm_cons_erase ht).mem_iff)
      rw [hSecond] at hHolds
      cases hHolds with
      | newest _ _ hMem _ _ => exact hMem
      | stuck _ _ hMem _ => exact hMem
    rw [hFirst, hSecond, Option.map_some, Option.map_some]
    intro hSame
    have hEq := hDistinct b hb t' hMem (Option.some.inj hSame)
    rw [hEq, hTerminal'] at hLoose
    cases hLoose
  · push Not at hAny
    have hNone : ∀ t ∈ events, R.terminal t = false := by simpa using hAny
    obtain ⟨e, he, hNe, hNewer⟩ := hNotNewest hNone
    obtain ⟨e', hEnd, hLe⟩ := foldl_mono (l := events.erase e) e
      fun t ht => hNone t (List.mem_of_mem_erase ht)
    refine ⟨b :: events.erase b, e :: events.erase e, (List.perm_cons_erase hb).symm,
      (List.perm_cons_erase he).symm, ?_⟩
    have hSecond : (e :: events.erase e).foldl R.step none = some e' := by
      rw [List.foldl_cons, step_none hOpen, hEnd]
    rw [hFirst, hSecond, Option.map_some, Option.map_some]
    intro hSame
    have hBack : R.revision b = R.revision e :=
      le_antisymm hNewer (hLe.trans_eq (Option.some.inj hSame).symm)
    exact hNe (hDistinct b hb e he hBack).symm

end Rules

end Pixaeron.Registers
