import Mathlib.Data.List.Basic
import Mathlib.Tactic.Common

/-! # Words with separators

Words that stand with single separators between them, or with a double one at one place.
-/

namespace Pixaeron.Text

variable {α : Type} {sep : α} {w x : List α} {words others : List (List α)}

def join (sep : α) (words : List (List α)) : List α := [sep].intercalate words

/-- Words that can be told apart: none is empty, and none has a separator in it. -/
def Words (sep : α) (words : List (List α)) : Prop := ∀ w ∈ words, w ≠ [] ∧ sep ∉ w

theorem join_cons_cons {v : List α} :
    join sep (w :: v :: words) = w ++ sep :: join sep (v :: words) := by
  simp [join, List.intercalate_cons_cons]

@[simp] theorem join_singleton : join sep [w] = w := List.intercalate_singleton

@[simp] theorem join_nil : join sep [] = [] := rfl

theorem Words.tail (h : Words sep (w :: words)) : Words sep words :=
  fun v hv => h v (List.mem_cons_of_mem _ hv)

theorem Words.join_eq_cons (h : Words sep (w :: words)) :
    ∃ d rest, join sep (w :: words) = d :: rest ∧ d ≠ sep := by
  obtain ⟨hSome, hPlain⟩ := h w (List.mem_cons_self ..)
  cases w with
  | nil => exact absurd rfl hSome
  | cons d w =>
    refine ⟨d, ?_⟩
    rw [List.mem_cons, not_or] at hPlain
    cases words with
    | nil => exact ⟨w, by rw [join_singleton], fun hSame => hPlain.1 hSame.symm⟩
    | cons v words => exact ⟨_, by rw [join_cons_cons]; rfl, fun hSame => hPlain.1 hSame.symm⟩

theorem mem_join {c : α} (h : c ∈ join sep words) : c = sep ∨ ∃ w ∈ words, c ∈ w := by
  induction words with
  | nil => simp at h
  | cons w words ih =>
    cases words with
    | nil => exact .inr ⟨w, by simp, by simpa using h⟩
    | cons v words =>
      rw [join_cons_cons, List.mem_append, List.mem_cons] at h
      rcases h with hFirst | rfl | hRest
      · exact .inr ⟨w, by simp, hFirst⟩
      · exact .inl rfl
      · rcases ih hRest with rfl | ⟨x, hx, hMem⟩
        · exact .inl rfl
        · exact .inr ⟨x, List.mem_cons_of_mem _ hx, hMem⟩

theorem sep_mem_join (h : 2 ≤ words.length) : sep ∈ join sep words := by
  match words, h with
  | _ :: _ :: _, _ => simp [join_cons_cons]

theorem map_join {β : Type} (f : α → β) :
    (join sep words).map f = join (f sep) (words.map (List.map f)) := by
  induction words with
  | nil => rfl
  | cons w words ih =>
    cases words with
    | nil => simp
    | cons v words => simpa [join_cons_cons] using ih

variable [DecidableEq α]

/-- Split at every double separator, from the left. -/
def splitDouble (sep : α) : List α → List (List α)
  | [] => [[]]
  | [c] => [[c]]
  | c :: d :: rest =>
    if c = sep ∧ d = sep then [] :: splitDouble sep rest
      else (splitDouble sep (d :: rest)).modifyHead (c :: ·)

/-- What stands after the last separator. -/
def lastPart (sep : α) (x : List α) : List α := (x.splitOn sep).getLast?.getD []

theorem splitOn_join (h : Words sep words) (hSome : words ≠ []) :
    (join sep words).splitOn sep = words :=
  List.splitOn_intercalate sep (fun w hw => (h w hw).2) hSome

theorem join_inj (h : Words sep words) (hOther : Words sep others) (hSome : words ≠ [])
    (hSome' : others ≠ []) (hSame : join sep words = join sep others) : words = others := by
  rw [← splitOn_join h hSome, hSame, splitOn_join hOther hSome']

theorem splitDouble_word (h : sep ∉ w) : splitDouble sep w = [w] := by
  induction w with
  | nil => rfl
  | cons c rest ih =>
    rw [List.mem_cons, not_or] at h
    cases rest with
    | nil => rfl
    | cons d rest =>
      rw [splitDouble, if_neg (fun hBoth => h.1 hBoth.1.symm), ih h.2]
      rfl

theorem splitDouble_double (h : sep ∉ w) :
    splitDouble sep (w ++ sep :: sep :: x) = w :: splitDouble sep x := by
  induction w with
  | nil => rw [List.nil_append, splitDouble, if_pos ⟨rfl, rfl⟩]
  | cons c rest ih =>
    rw [List.mem_cons, not_or] at h
    have hNext := ih h.2
    cases rest with
    | nil =>
      rw [List.nil_append] at hNext
      rw [List.cons_append, List.nil_append, splitDouble,
        if_neg (fun hBoth => h.1 hBoth.1.symm), hNext]
      rfl
    | cons d rest =>
      rw [List.cons_append] at hNext
      rw [List.cons_append, List.cons_append, splitDouble,
        if_neg (fun hBoth => h.1 hBoth.1.symm), hNext]
      rfl

theorem splitDouble_single {d : α} (h : sep ∉ w) (hNext : d ≠ sep) :
    splitDouble sep (w ++ sep :: d :: x) =
      (splitDouble sep (d :: x)).modifyHead (w ++ sep :: ·) := by
  induction w with
  | nil =>
    rw [List.nil_append, splitDouble, if_neg (fun hBoth => hNext hBoth.2)]
    rfl
  | cons c rest ih =>
    rw [List.mem_cons, not_or] at h
    have hRest := ih h.2
    cases rest with
    | nil =>
      rw [List.nil_append] at hRest
      rw [List.cons_append, List.nil_append, splitDouble, if_neg (fun hBoth => h.1 hBoth.1.symm),
        hRest, List.modifyHead_modifyHead]
      rfl
    | cons e rest =>
      rw [List.cons_append] at hRest
      rw [List.cons_append, List.cons_append, splitDouble, if_neg (fun hBoth => h.1 hBoth.1.symm),
        hRest, List.modifyHead_modifyHead]
      rfl

theorem splitDouble_join (h : Words sep words) :
    splitDouble sep (join sep words) = [join sep words] := by
  induction words with
  | nil => rfl
  | cons w words ih =>
    cases words with
    | nil =>
      rw [join_singleton]
      exact splitDouble_word (h w (List.mem_cons_self ..)).2
    | cons v words =>
      obtain ⟨d, rest, hRest, hNext⟩ := h.tail.join_eq_cons
      rw [join_cons_cons, hRest, splitDouble_single (h w (List.mem_cons_self ..)).2 hNext,
        ← hRest, ih h.tail]
      rfl

theorem splitDouble_join_double (h : Words sep words) :
    splitDouble sep (join sep words ++ sep :: sep :: x) = join sep words :: splitDouble sep x := by
  induction words with
  | nil => exact splitDouble_double List.not_mem_nil
  | cons w words ih =>
    cases words with
    | nil =>
      rw [join_singleton]
      exact splitDouble_double (h w (List.mem_cons_self ..)).2
    | cons v words =>
      obtain ⟨d, rest, hRest, hNext⟩ := h.tail.join_eq_cons
      have hTail := ih h.tail
      rw [hRest, List.cons_append] at hTail
      rw [join_cons_cons, hRest, List.append_assoc, List.cons_append, List.cons_append,
        splitDouble_single (h w (List.mem_cons_self ..)).2 hNext, hTail]
      rfl

theorem splitDouble_ne_nil {x : List α} : splitDouble sep x ≠ [] := by
  fun_induction splitDouble sep x with
  | case1 => simp
  | case2 => simp
  | case3 => simp
  | case4 c d rest _ ih => simpa [List.modifyHead_eq_nil_iff] using ih

theorem intercalate_splitDouble {x : List α} : [sep, sep].intercalate (splitDouble sep x) = x := by
  fun_induction splitDouble sep x with
  | case1 => rfl
  | case2 => rfl
  | case3 c d rest hBoth ih =>
    obtain ⟨w, words, hSplit⟩ := List.exists_cons_of_ne_nil (@splitDouble_ne_nil α sep _ rest)
    rw [hSplit] at ih ⊢
    rw [List.intercalate_cons_cons, ih, hBoth.1, hBoth.2]
    rfl
  | case4 c d rest _ ih =>
    obtain ⟨w, words, hSplit⟩ :=
      List.exists_cons_of_ne_nil (@splitDouble_ne_nil α sep _ (d :: rest))
    rw [hSplit] at ih ⊢
    cases words with
    | nil => simpa using ih
    | cons v words =>
      rw [List.intercalate_cons_cons] at ih
      rw [List.modifyHead_cons, List.intercalate_cons_cons, List.cons_append, List.cons_append,
        ← ih, List.append_assoc]

theorem lastPart_join (h : Words sep words) (hSome : words ≠ []) :
    lastPart sep (join sep words) = words.getLast?.getD [] := by
  rw [lastPart, splitOn_join h hSome]

theorem lastPart_double (h : Words sep others) :
    lastPart sep (x ++ sep :: sep :: join sep others) = others.getLast?.getD [] := by
  have hSplit : (x ++ sep :: sep :: join sep others).splitOn sep =
    x.splitOn sep ++ ([] :: (join sep others).splitOn sep) := by
    rw [List.splitOn_append_cons_self]
    congr 1
    exact List.splitOn_append_cons_self_of_not_mem (List.not_mem_nil ) _
  rw [lastPart, hSplit]
  cases others with
  | nil => simp
  | cons w others =>
    rw [splitOn_join h (by simp)]
    simp [List.getLast?_append, List.getLast?_cons]

/-- The first word of a text, as a beginning of the text. -/
theorem prefix_join_iff (hWord : sep ∉ x) (h : Words sep (w :: words)) (hMore : words ≠ []) :
    x ++ [sep] <+: join sep (w :: words) ↔ w = x := by
  have hPlain := (h w (List.mem_cons_self ..)).2
  obtain ⟨v, words, rfl⟩ := List.exists_cons_of_ne_nil hMore
  rw [join_cons_cons]
  constructor
  · rintro ⟨rest, hSame⟩
    rw [List.append_assoc] at hSame
    have hSplit := congrArg (List.splitOn sep) hSame
    rw [List.singleton_append, List.splitOn_append_cons_self_of_not_mem hWord,
      List.splitOn_append_cons_self_of_not_mem hPlain] at hSplit
    exact (List.cons.inj hSplit).1.symm
  · rintro rfl
    exact ⟨join sep (v :: words), by simp⟩

end Pixaeron.Text
