import Mathlib.Data.List.Perm.Basic
import Mathlib.Data.List.Perm.Subperm
import Mathlib.Data.List.Sort
import Mathlib.Tactic.Common

/-! # Pages of an ordered table

A query orders the rows by a key and leaves rows of equal keys in any order, a new one on each
query. Pages of the same size are read one after the other. Each row is read once, whatever the
orders are, if and only if no page ends inside a group of rows with equal keys. -/

namespace Pixaeron.Paging

variable {α κ : Type} [LinearOrder κ] {key : α → κ} {rows answer other : List α}

/-- An order in which a query may give the rows. -/
structure Arrangement (key : α → κ) (rows answer : List α) : Prop where
  perm : answer.Perm rows
  sorted : answer.Pairwise fun a b => key a ≤ key b

def page (size k : Nat) (answer : List α) : List α := (answer.drop (k * size)).take size

/-- How many pages are read until the total is reached. -/
def pageCount (size total : Nat) : Nat := (total + size - 1) / size

def readPages (size total : Nat) (answers : Nat → List α) : List α :=
  (List.range (pageCount size total)).flatMap fun k => page size k (answers k)

/-- No page ends inside a group of rows with equal keys. -/
def WholeGroups (key : α → κ) (rows : List α) (size : Nat) : Prop :=
  ∀ k, ∀ row ∈ rows, ¬ (rows.countP (fun a => key a < key row) < k * size ∧
    k * size < rows.countP fun a => key a ≤ key row)

theorem lt_pageCount {size total k : Nat} (hSize : 0 < size) :
    k < pageCount size total ↔ k * size < total := by
  rw [pageCount, ← Nat.succ_le_iff, Nat.le_div_iff_mul_le hSize, Nat.succ_mul]
  omega

theorem arrangement_insertionSort :
    Arrangement key rows (rows.insertionSort fun a b => key a ≤ key b) where
  perm := List.perm_insertionSort _ rows
  sorted := by
    have hTotal : Std.Total fun a b : α => key a ≤ key b := ⟨fun a b => le_total (key a) (key b)⟩
    have hTrans : IsTrans α fun a b : α => key a ≤ key b := ⟨fun _ _ _ => le_trans⟩
    exact List.pairwise_insertionSort _ rows

theorem take_eq_filter (hSorted : answer.Pairwise fun a b => key a ≤ key b) (bound : κ) :
    answer.take (answer.countP fun a => key a < bound) = answer.filter fun a => key a < bound := by
  induction hSorted with
  | nil => rfl
  | @cons a rest hFirst _ ih =>
    by_cases hBelow : key a < bound
    · rw [List.countP_cons_of_pos (by simpa using hBelow), List.take_succ_cons, ih,
        List.filter_cons_of_pos (by simpa using hBelow)]
    · have hNone : ∀ b ∈ a :: rest, ¬ key b < bound := by
        intro b hb
        rcases List.mem_cons.mp hb with rfl | hRest
        · exact hBelow
        · exact not_lt.mpr ((not_lt.mp hBelow).trans (hFirst b hRest))
      rw [List.countP_eq_zero.mpr (by simpa using hNone), List.take_zero]
      exact (List.filter_eq_nil_iff.mpr (by simpa using hNone)).symm

theorem take_perm {size k : Nat} (hWhole : WholeGroups key rows size)
    (h : Arrangement key rows answer) (h' : Arrangement key rows other) :
    (answer.take (k * size)).Perm (other.take (k * size)) := by
  by_cases hEnd : answer.length ≤ k * size
  · have hOther : other.length ≤ k * size := by rwa [h'.perm.length_eq, ← h.perm.length_eq]
    rw [List.take_of_length_le hEnd, List.take_of_length_le hOther]
    exact h.perm.trans h'.perm.symm
  have hInside : k * size < answer.length := by omega
  obtain ⟨row, hRow⟩ : ∃ row, row = answer[k * size] := ⟨_, rfl⟩
  have hMem : row ∈ rows := h.perm.subset (hRow ▸ List.getElem_mem hInside)
  have hCount {bound : κ} : answer.countP (fun a => key a < bound) = rows.countP fun a =>
    key a < bound := h.perm.countP_eq _
  -- fewer rows than the page's end are below the next row, and more are not above it
  have hBelow : rows.countP (fun a => key a < key row) ≤ k * size := by
    by_contra hMore
    have hTaken : row ∈ answer.take (answer.countP fun a => key a < key row) := by
      rw [hRow, hCount]
      exact List.mem_take_iff_getElem.mpr ⟨k * size, by rw [← hRow]; omega, rfl⟩
    rw [take_eq_filter h.sorted] at hTaken
    simp at hTaken
  have hAbove : k * size < rows.countP fun a => key a ≤ key row := by
    rw [← h.perm.countP_eq]
    have hFront : (answer.take (k * size + 1)).countP (fun a => key a ≤ key row) =
      k * size + 1 := by
      rw [List.countP_eq_length.mpr, List.length_take]
      · omega
      intro a ha
      obtain ⟨i, hi, rfl⟩ := List.mem_take_iff_getElem.mp ha
      rw [decide_eq_true_iff, hRow]
      rcases Nat.lt_or_ge i (k * size) with hLess | hSame
      · exact List.pairwise_iff_getElem.mp h.sorted i (k * size) (by omega) hInside hLess
      · have hEq : i = k * size := by omega
        subst hEq
        exact le_rfl
    have hSub :=
      (List.take_sublist (k * size + 1) answer).countP_le (p := fun a => decide (key a ≤ key row))
    omega
  have hExact : rows.countP (fun a => key a < key row) = k * size := by
    by_contra hNot
    exact hWhole k row hMem ⟨by omega, hAbove⟩
  have hFilter {l : List α} (hl : Arrangement key rows l) : l.take (k * size) = l.filter fun a =>
    key a < key row := by
    rw [← take_eq_filter hl.sorted, hl.perm.countP_eq, hExact]
  rw [hFilter h, hFilter h']
  exact (h.perm.trans h'.perm.symm).filter _

theorem take_add_page {size k : Nat} :
    answer.take (k * size) ++ page size k answer = answer.take ((k + 1) * size) := by
  rw [page, Nat.succ_mul, List.take_add]

theorem page_perm {size k : Nat} (hWhole : WholeGroups key rows size)
    (h : Arrangement key rows answer) (h' : Arrangement key rows other) :
    (page size k answer).Perm (page size k other) := by
  have hBoth : (answer.take (k * size) ++ page size k answer).Perm
    (other.take (k * size) ++ page size k other) := by
    rw [take_add_page, take_add_page]
    exact take_perm hWhole h h'
  have hFront := (take_perm (k := k) hWhole h h').symm
  exact (List.perm_append_left_iff _).mp ((hFront.append_right _).trans hBoth)

theorem flatMap_pages {size n : Nat} :
    (List.range n).flatMap (fun k => page size k answer) = answer.take (n * size) := by
  induction n with
  | zero => simp
  | succ n ih =>
    rw [List.range_succ, List.flatMap_append, ih, List.flatMap_singleton, take_add_page]

theorem readPages_perm {size : Nat} (hSize : 0 < size) (hWhole : WholeGroups key rows size)
    {answers : Nat → List α} (h : ∀ k, Arrangement key rows (answers k)) :
    (readPages size rows.length answers).Perm rows := by
  have hFirst := h 0
  have hSame : (readPages size rows.length answers).Perm
      ((List.range (pageCount size rows.length)).flatMap fun k => page size k (answers 0)) :=
    List.Perm.flatMap_left _ fun k _ => page_perm hWhole (h k) hFirst
  rw [flatMap_pages, List.take_of_length_le] at hSame
  · exact hSame.trans hFirst.perm
  · rw [hFirst.perm.length_eq]
    have hLast := (lt_pageCount (k := pageCount size rows.length) hSize).not.mp (lt_irrefl _)
    omega

theorem Arrangement.swap {front back : List α} {a b : α}
    (h : Arrangement key rows (front ++ a :: b :: back)) (hSame : key a = key b) :
    Arrangement key rows (front ++ b :: a :: back) where
  perm := ((List.Perm.swap a b back).append_left front).trans h.perm
  sorted := by
    have hSorted := h.sorted
    simp only [List.pairwise_append, List.pairwise_cons, List.mem_cons] at hSorted ⊢
    obtain ⟨hFront, ⟨hA, hB, hBack⟩, hAcross⟩ := hSorted
    refine ⟨hFront, ⟨?_, ?_, hBack⟩, ?_⟩
    · rintro c (rfl | hc)
      · exact hSame.ge
      · exact hB c hc
    · exact fun c hc => hA c (.inr hc)
    · rintro c hc d (rfl | rfl | hd)
      · exact hAcross c hc d (.inr (.inl rfl))
      · exact hAcross c hc d (.inl rfl)
      · exact hAcross c hc d (.inr (.inr hd))

theorem mem_page {size k i : Nat} {r : α} (hAt : answer[i]? = some r) (hFirst : k * size ≤ i)
    (hLast : i < (k + 1) * size) :
    r ∈ page size k answer := by
  refine List.mem_iff_getElem?.mpr ⟨i - k * size, ?_⟩
  rw [Nat.succ_mul] at hLast
  rw [page, List.getElem?_take_of_lt (by omega), List.getElem?_drop,
    Nat.add_sub_cancel' hFirst, hAt]

/-- Rows with equal keys on the two sides of a page's end may be read twice, or not at all. -/
theorem exists_twice {size : Nat} (hNodup : rows.Nodup) (hSplit : ¬ WholeGroups key rows size) :
    ∃ answers : Nat → List α, (∀ k, Arrangement key rows (answers k)) ∧
      ¬ (readPages size rows.length answers).Perm rows := by
  unfold WholeGroups at hSplit
  push Not at hSplit
  obtain ⟨k, row, -, hBelow, hAbove⟩ := hSplit
  have hSize : 0 < size := Nat.pos_of_ne_zero fun hZero => by simp [hZero] at hBelow
  have h : Arrangement key rows (rows.insertionSort fun a b => key a ≤ key b) :=
    arrangement_insertionSort
  obtain ⟨s, hs⟩ : ∃ s, s = rows.insertionSort fun a b => key a ≤ key b := ⟨_, rfl⟩
  rw [← hs] at h
  have hLength : k * size < s.length := by
    rw [h.perm.length_eq]
    exact hAbove.trans_le List.countP_le_length
  -- the rows on the two sides have the group's key
  have hKey : ∀ i, (hi : i < s.length) → rows.countP (fun a => key a < key row) ≤ i → i ≤ k * size →
    key s[i] = key row := by
    intro i hi hFrom hTo
    refine le_antisymm ?_ ?_
    · by_contra hMore
      have hFew : s.countP (fun a => key a ≤ key row) ≤ i := by
        have hNone : (s.drop i).countP (fun a => key a ≤ key row) = 0 := List.countP_eq_zero.mpr ?_
        · rw [← List.take_append_drop i s, List.countP_append, hNone, Nat.add_zero]
          exact List.countP_le_length.trans (by rw [List.length_take]; omega)
        intro a ha hLow
        obtain ⟨j, hj, rfl⟩ := List.mem_drop_iff_getElem.mp ha
        rw [decide_eq_true_iff] at hLow
        refine hMore (le_trans ?_ hLow)
        rcases Nat.eq_zero_or_pos j with rfl | hPos
        · exact le_rfl
        · exact List.pairwise_iff_getElem.mp h.sorted i (i + j) hi (by omega) (by omega)
      rw [h.perm.countP_eq] at hFew
      omega
    · by_contra hLess
      have hTaken : s[i] ∈ s.filter fun a => key a < key row :=
        List.mem_filter.mpr ⟨List.getElem_mem hi, by simpa using hLess⟩
      rw [← take_eq_filter h.sorted, h.perm.countP_eq] at hTaken
      obtain ⟨j, hj, hEq⟩ := List.mem_take_iff_getElem.mp hTaken
      have hSame := (List.Nodup.getElem_inj_iff (h.perm.nodup_iff.mpr hNodup)).mp hEq
      omega
  have hPos : 0 < k * size := by omega
  obtain ⟨front, a, b, back, rfl, hFront⟩ : ∃ front a b back, s = front ++ a :: b :: back ∧
    front.length = k * size - 1 := by
    refine ⟨s.take (k * size - 1), s[k * size - 1], s[k * size], s.drop (k * size + 1), ?_,
      by rw [List.length_take]; omega⟩
    have hNext : s.drop (k * size - 1) = s[k * size - 1] :: s.drop (k * size) := by
      rw [List.drop_eq_getElem_cons (by omega), Nat.sub_add_cancel hPos]
    rw [← List.drop_eq_getElem_cons hLength, ← hNext, List.take_append_drop]
  have hSame : key a = key b := by
    have hA := hKey (k * size - 1) (by omega) (by omega) (by omega)
    have hB := hKey (k * size) hLength (by omega) le_rfl
    rw [List.getElem_append_right (by omega)] at hA hB
    simp only [hFront, Nat.sub_self, List.getElem_cons_zero,
      show k * size - (k * size - 1) = 1 by omega, List.getElem_cons_succ] at hA hB
    exact hA.trans hB.symm
  refine ⟨fun j => if j < k then front ++ b :: a :: back else front ++ a :: b :: back, fun j => ?_,
    fun hPerm => ?_⟩
  · dsimp only
    split
    · exact h.swap hSame
    · exact h
  have hK : 0 < k := Nat.pos_of_ne_zero fun hZero => by simp [hZero] at hPos
  have hStep : (k - 1 + 1) * size = k * size := by rw [Nat.sub_add_cancel hK]
  have hOnce := (List.nodup_flatMap.mp (hPerm.nodup_iff.mpr hNodup)).2
  have hCount : k < pageCount size rows.length := by
    rw [lt_pageCount hSize, ← h.perm.length_eq]
    exact hLength
  have hApart := List.pairwise_iff_getElem.mp hOnce (k - 1) k (by rw [List.length_range]; omega)
    (by rw [List.length_range]; exact hCount) (by omega)
  simp only [List.getElem_range, Function.onFun, lt_irrefl, if_false,
    if_pos (show k - 1 < k by omega)] at hApart
  rw [Nat.succ_mul] at hStep
  refine hApart (mem_page (i := k * size - 1) (r := b) ?_ (by omega) ?_)
    (mem_page (i := k * size) (r := b) ?_ le_rfl ?_)
  · rw [← hFront, List.getElem?_append_right le_rfl, Nat.sub_self, List.getElem?_cons_zero]
  · rw [Nat.sub_add_cancel hK]
    omega
  · rw [List.getElem?_append_right (by omega), hFront, show k * size - (k * size - 1) = 1 by omega]
    rfl
  · rw [Nat.succ_mul]
    omega

theorem readPages_perm_iff {size : Nat} (hSize : 0 < size) (hNodup : rows.Nodup) :
    (∀ answers : Nat → List α, (∀ k, Arrangement key rows (answers k)) →
      (readPages size rows.length answers).Perm rows) ↔
      WholeGroups key rows size := by
  constructor
  · intro hAll
    by_contra hSplit
    obtain ⟨answers, hAnswers, hNot⟩ := exists_twice hNodup hSplit
    exact hNot (hAll answers hAnswers)
  · exact fun hWhole answers h => readPages_perm hSize hWhole h

theorem countP_le_eq (bound : κ) :
    rows.countP (fun a => key a ≤ bound) = rows.countP (fun a => key a < bound) +
      rows.countP fun a => key a = bound := by
  induction rows with
  | nil => rfl
  | cons a rest ih =>
    simp only [List.countP_cons, decide_eq_true_iff, ih]
    rcases lt_trichotomy (key a) bound with hLess | hSame | hMore
    · simp only [hLess, hLess.le, hLess.ne, if_true, if_false]
      omega
    · simp only [hSame, le_refl, lt_irrefl, if_true, if_false]
      omega
    · simp only [hMore.not_ge, hMore.not_gt, hMore.ne', if_false]
      omega

theorem wholeGroups_of_injective {size : Nat} (hNodup : rows.Nodup)
    (h : ∀ a ∈ rows, ∀ b ∈ rows, key a = key b → a = b) :
    WholeGroups key rows size := by
  rintro k row hRow ⟨hBelow, hAbove⟩
  have hOne : rows.countP (fun a => key a = key row) ≤ 1 := by
    have hOnly : ∀ a ∈ rows.filter (fun a => key a = key row), a ∈ [row] := by
      intro a ha
      obtain ⟨hMem, hKey⟩ := List.mem_filter.mp ha
      exact List.mem_singleton.mpr (h a hMem row hRow (of_decide_eq_true hKey))
    rw [List.countP_eq_length_filter]
    exact (List.subperm_of_subset (hNodup.filter _) hOnly).length_le
  rw [countP_le_eq] at hAbove
  omega

end Pixaeron.Paging
