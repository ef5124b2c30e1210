import Mathlib.Data.List.Basic
import Mathlib.Data.List.Infix
import Mathlib.Tactic.Common

/-! # Padded items

A text of items, each introduced by a pad symbol and a mark, with any number of further pads before
it. Pads cannot be mistaken for an item, so the items can be read off from the left.
-/

namespace Pixaeron.Bytes

variable {α : Type} {pad : α}

def Marked (pad : α) (item : List α) : Prop := ∃ mark rest, item = pad :: mark :: rest ∧ mark ≠ pad

def padded (pad : α) (pads : Nat) (item : List α) : List α := List.replicate pads pad ++ item

inductive Spelled (pad : α) : List (List α) → List α → Prop
  | nil : Spelled pad [] []
  | cons (pads : Nat) {item : List α} {items : List (List α)} {text : List α}
      (h : Spelled pad items text) :
      Spelled pad (item :: items) (padded pad pads item ++ text)

/-- No text that goes on from the one is the start of a text that goes on from the other. -/
def Apart (item other : List α) : Prop := ∀ text rest, ¬ item ++ text <+: other ++ rest

section Items

variable {item other text rest : List α} {items : List (List α)} {pads more : Nat}

theorem padded_prefix (hItem : Marked pad item) (hOther : Marked pad other)
    (h : padded pad pads item ++ text <+: padded pad more other ++ rest) :
    pads = more ∧ item ++ text <+: other ++ rest := by
  obtain ⟨mark, tail, rfl, hMark⟩ := hItem
  obtain ⟨mark', tail', rfl, hMark'⟩ := hOther
  simp only [padded, List.append_assoc] at h
  induction pads generalizing more with
  | zero =>
    cases more with
    | zero => exact ⟨rfl, h⟩
    | succ more =>
      rw [List.replicate_succ, List.cons_append, List.replicate_zero, List.nil_append,
        List.cons_append, List.cons_append, List.cons_prefix_cons] at h
      cases more with
      | zero => exact absurd (List.cons_prefix_cons.mp h.2).1 hMark
      | succ more => exact absurd (List.cons_prefix_cons.mp h.2).1 hMark
  | succ pads ih =>
    cases more with
    | zero =>
      rw [List.replicate_succ, List.cons_append, List.replicate_zero, List.nil_append,
        @List.cons_append _ _ (mark' :: tail'), List.cons_prefix_cons] at h
      cases pads with
      | zero => exact absurd (List.cons_prefix_cons.mp h.2).1.symm hMark'
      | succ pads => exact absurd (List.cons_prefix_cons.mp h.2).1.symm hMark'
    | succ more =>
      rw [List.replicate_succ, List.replicate_succ, List.cons_append, List.cons_append] at h
      obtain ⟨hPads, hRest⟩ := ih (List.cons_prefix_cons.mp h).2
      exact ⟨congrArg Nat.succ hPads, hRest⟩

/-- Items that stand without pads are read as they are. -/
theorem Spelled.of_flatten {front back : List (List α)} (hMarked : ∀ item ∈ front, Marked pad item)
    (h : Spelled pad (front ++ back) (front.flatten ++ text)) : Spelled pad back text := by
  induction front with
  | nil => exact h
  | cons item front ih =>
    rw [List.flatten_cons, List.append_assoc, List.cons_append] at h
    generalize hWhole : item ++ (front.flatten ++ text) = whole at h
    cases h with
    | cons pads hRest =>
      have hItem := hMarked item (List.mem_cons_self ..)
      have hSame : padded pad 0 item ++ (front.flatten ++ text) <+: padded pad pads item ++ _ :=
        ⟨[], by rw [List.append_nil]; exact hWhole⟩
      obtain ⟨rfl, -⟩ := padded_prefix hItem hItem hSame
      rw [← List.append_cancel_left hWhole] at hRest
      exact ih (fun item h => hMarked item (List.mem_cons_of_mem _ h)) hRest

theorem Spelled.flatten_append {front back : List (List α)} (h : Spelled pad back text) :
    Spelled pad (front ++ back) (front.flatten ++ text) := by
  induction front with
  | nil => exact h
  | cons item front ih =>
    rw [List.flatten_cons, List.append_assoc]
    exact .cons 0 ih

end Items

/-! ## Leaving items out -/

/-- An item with the pads in front of it, and whether it is to be kept. -/
structure PaddedItem (α : Type) where
  pads : Nat
  item : List α
  kept : Bool

def PaddedItem.text (pad : α) (p : PaddedItem α) : List α := padded pad p.pads p.item

section Omissions

def keptItems (items : List (PaddedItem α)) : List (List α) :=
  (items.filter PaddedItem.kept).map PaddedItem.item

variable {text : List α} {items : List (PaddedItem α)} {final : PaddedItem α}

theorem spelled_all (h : ∀ p ∈ items, p.kept = true) :
    Spelled pad (keptItems items) (items.flatMap (PaddedItem.text pad)) := by
  induction items with
  | nil => exact .nil
  | cons p items ih =>
    rw [keptItems, List.filter_cons, if_pos (h p (List.mem_cons_self ..)), List.flatMap_cons]
    exact .cons p.pads (ih fun q hq => h q (List.mem_cons_of_mem _ hq))

/-- A start of a text that spells out what is kept of it is the whole text, and everything is kept.
-/
theorem Spelled.covers (hMarked : ∀ p ∈ items ++ [final], Marked pad p.item)
    (hFinal : final.kept = true) (hApart : ∀ p ∈ items ++ [final], p.kept = true → ∀ q ∈ items,
      q.kept = false → Apart p.item q.item) (h : Spelled pad (keptItems (items ++ [final])) text)
    (hPrefix : text <+: (items ++ [final]).flatMap (PaddedItem.text pad)) :
    (∀ p ∈ items, p.kept = true) ∧ text = (items ++ [final]).flatMap (PaddedItem.text pad) := by
  induction items generalizing text with
  | nil =>
    rw [List.nil_append, keptItems, List.filter_cons, if_pos hFinal, List.filter_nil] at h
    rw [List.nil_append, List.flatMap_cons, List.flatMap_nil] at hPrefix ⊢
    cases h with
    | cons pads hRest =>
      cases hRest
      have hItem := hMarked final (List.mem_cons_self ..)
      obtain ⟨rfl, -⟩ := padded_prefix hItem hItem hPrefix
      exact ⟨fun p hp => absurd hp (List.not_mem_nil), rfl⟩
  | cons q items ih =>
    rw [List.cons_append, keptItems, List.filter_cons] at h
    rw [List.cons_append, List.flatMap_cons] at hPrefix ⊢
    have hItem := hMarked q (List.mem_cons_self ..)
    cases hKept : q.kept with
    | true =>
      rw [if_pos hKept] at h
      cases h with
      | cons pads hRest =>
        obtain ⟨rfl, hTail⟩ := padded_prefix hItem hItem hPrefix
        obtain ⟨hAll, rfl⟩ := ih (fun p hp => hMarked p (List.mem_cons_of_mem _ hp))
          (fun p hp hp' r hr => hApart p (List.mem_cons_of_mem _ hp) hp' r
            (List.mem_cons_of_mem _ hr)) hRest
          ((List.prefix_append_right_inj _).mp hTail)
        refine ⟨fun p hp => ?_, rfl⟩
        obtain rfl | hp := List.mem_cons.mp hp
        · exact hKept
        · exact hAll p hp
    | false =>
      rw [if_neg (by rw [hKept]; decide)] at h
      -- The next item that is kept would have to start where the one left out starts.
      cases hRest : (items ++ [final]).filter PaddedItem.kept with
      | nil =>
        have hLast : final ∈ (items ++ [final]).filter PaddedItem.kept :=
          List.mem_filter.mpr ⟨List.mem_append_right _ (List.mem_cons_self ..), hFinal⟩
        rw [hRest] at hLast
        exact absurd hLast List.not_mem_nil
      | cons p rest =>
        have hp : p ∈ (items ++ [final]).filter PaddedItem.kept := by
          rw [hRest]
          exact List.mem_cons_self ..
        obtain ⟨hMem, hpKept⟩ := List.mem_filter.mp hp
        rw [hRest, List.map_cons] at h
        cases h with
        | cons pads hTail =>
          obtain ⟨-, hAt⟩ := padded_prefix (hMarked p (List.mem_cons_of_mem _ hMem)) hItem hPrefix
          exact absurd hAt (hApart p (List.mem_cons_of_mem _ hMem) hpKept q
            (List.mem_cons_self ..) hKept _ _)

end Omissions

end Pixaeron.Bytes
