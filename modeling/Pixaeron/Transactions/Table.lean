import Mathlib.Data.List.Nodup
import Mathlib.Algebra.Order.BigOperators.Group.List
import Mathlib.Algebra.Order.Ring.Nat

/-! # Tables with a primary key

A table is a list of rows no two of which have the same key. Every operation keeps that, so a
lookup by key always means the one row with that key.
-/

namespace Pixaeron.Transactions

structure Table {κ ρ : Type} (key : ρ → κ) where
  rows : List ρ
  nodup : (rows.map key).Nodup

namespace Table

variable {κ ρ : Type} {key : ρ → κ}

def empty : Table key := ⟨[], List.nodup_nil⟩

def select (t : Table key) (p : ρ → Bool) : List ρ := t.rows.filter p

def delete (t : Table key) (p : ρ → Bool) : Table key where
  rows := t.rows.filter fun r => !p r
  nodup := t.nodup.sublist (List.filter_sublist.map key)

def total (t : Table key) (g : ρ → Nat) : Nat := (t.rows.map g).sum

@[simp] theorem rows_empty : (empty : Table key).rows = [] := rfl

@[simp] theorem mem_select {t : Table key} {p : ρ → Bool} {r : ρ} :
    r ∈ t.select p ↔ r ∈ t.rows ∧ p r = true := List.mem_filter

@[simp] theorem delete_false {t : Table key} : (t.delete fun _ => false) = t := by
  unfold delete
  simp

theorem total_le_total {t : Table key} {g g' : ρ → Nat}
    (h : ∀ r ∈ t.rows, g r ≤ g' r) : t.total g ≤ t.total g' :=
  List.sum_le_sum h

theorem total_congr {t : Table key} {g g' : ρ → Nat} (h : ∀ r ∈ t.rows, g r = g' r) :
    t.total g = t.total g' := by
  unfold total
  rw [List.map_congr_left h]

theorem total_add {t : Table key} {g g' : ρ → Nat} :
    t.total (fun r => g r + g' r) = t.total g + t.total g' :=
  List.sum_map_add

theorem total_delete_le {t : Table key} {p : ρ → Bool} {g : ρ → Nat} :
    (t.delete p).total g ≤ t.total g :=
  (List.filter_sublist.map g).sum_le_sum fun _ _ => Nat.zero_le _

variable [DecidableEq κ]

def get (t : Table key) (k : κ) : Option ρ := t.rows.find? fun r => key r = k

def modify (t : Table key) (ks : List κ) (f : ρ → ρ)
    (hKey : ∀ r, key (f r) = key r := by exact fun _ => rfl) : Table key where
  rows := t.rows.map fun r => if key r ∈ ks then f r else r
  nodup := by
    have hSame : (key ∘ fun r => if key r ∈ ks then f r else r) = key := by
      funext r
      simp only [Function.comp]
      split
      · exact hKey r
      · rfl
    rw [List.map_map, hSame]
    exact t.nodup

/-- Adds a row, unless its key is taken. -/
def insert (t : Table key) (r : ρ) : Table key :=
  if h : key r ∈ t.rows.map key then t else
    { rows := t.rows ++ [r]
      nodup := by
        rw [List.map_append, List.nodup_append]
        refine ⟨t.nodup, List.nodup_singleton _, ?_⟩
        intro a ha b hb hEq
        rw [List.map_singleton, List.mem_singleton] at hb
        subst hEq hb
        exact h ha }

variable {t : Table key} {k : κ} {r : ρ}

theorem key_of_get (h : t.get k = some r) : key r = k := by
  simpa using List.find?_some h

theorem mem_of_get (h : t.get k = some r) : r ∈ t.rows :=
  List.mem_of_find?_eq_some h

theorem get_of_mem (h : r ∈ t.rows) : t.get (key r) = some r := by
  unfold get
  cases hFound : t.rows.find? fun r' => key r' = key r with
  | none =>
    have hNone := List.find?_eq_none.mp hFound r h
    simp at hNone
  | some r' =>
    have hKey : key r' = key r := by simpa using List.find?_some hFound
    rw [List.inj_on_of_nodup_map t.nodup (List.mem_of_find?_eq_some hFound) h hKey]

theorem mem_rows_iff : r ∈ t.rows ↔ t.get (key r) = some r :=
  ⟨get_of_mem, mem_of_get⟩

theorem get_eq_some_iff : t.get k = some r ↔ r ∈ t.rows ∧ key r = k := by
  constructor
  · intro h
    exact ⟨mem_of_get h, key_of_get h⟩
  · rintro ⟨hMem, rfl⟩
    exact get_of_mem hMem

theorem mem_map_select {p : ρ → Bool} :
    k ∈ (t.select p).map key ↔ ∃ r, t.get k = some r ∧ p r = true := by
  constructor
  · intro h
    obtain ⟨r, hr, rfl⟩ := List.mem_map.mp h
    obtain ⟨hMem, hp⟩ := mem_select.mp hr
    exact ⟨r, get_of_mem hMem, hp⟩
  · rintro ⟨r, hGet, hp⟩
    obtain ⟨hMem, rfl⟩ := get_eq_some_iff.mp hGet
    exact List.mem_map_of_mem (mem_select.mpr ⟨hMem, hp⟩)

/-- `WHERE key = k AND q` finds the row with that key if it satisfies `q`. -/
theorem mem_keys_select {k' : κ} {q : ρ → Bool} :
    k' ∈ (t.select fun r => key r = k && q r).map key ↔
      k' = k ∧ ∃ r, t.get k = some r ∧ q r = true := by
  rw [mem_map_select]
  constructor
  · rintro ⟨r, hGet, hBoth⟩
    rw [Bool.and_eq_true, decide_eq_true_eq, key_of_get hGet] at hBoth
    obtain ⟨rfl, hq⟩ := hBoth
    exact ⟨rfl, r, hGet, hq⟩
  · rintro ⟨rfl, r, hGet, hq⟩
    exact ⟨r, hGet, by simp [key_of_get hGet, hq]⟩

/-- A condition that only the row with key `k` satisfies selects that row. -/
theorem select_eq_singleton {p : ρ → Bool} (hMem : r ∈ t.select p)
    (hOnly : ∀ r', r' ∈ t.select p → t.get k = some r') : t.select p = [r] := by
  have hNodup : (t.select p).Nodup := (List.Nodup.of_map _ t.nodup).filter _
  refine List.perm_singleton.mp ((List.perm_ext_iff_of_nodup hNodup (List.nodup_singleton r)).mpr
    fun r' => ?_)
  rw [List.mem_singleton]
  constructor
  · intro h
    exact Option.some.inj ((hOnly r' h).symm.trans (hOnly r hMem))
  · rintro rfl
    exact hMem

theorem get_eq_none_iff : t.get k = none ↔ ∀ r ∈ t.rows, key r ≠ k := by
  unfold get
  rw [List.find?_eq_none]
  simp

@[simp] theorem get_empty : (empty : Table key).get k = none := rfl

theorem find_map {l : List ρ} {f : ρ → ρ} (hKey : ∀ r, key (f r) = key r) :
    (l.map f).find? (fun r => key r = k) = (l.find? fun r => key r = k).map f := by
  induction l with
  | nil => rfl
  | cons a rest ih =>
    simp only [List.map_cons, List.find?_cons, hKey]
    split
    · rfl
    · exact ih

theorem get_modify {ks : List κ} {f : ρ → ρ} {hKey : ∀ r, key (f r) = key r} :
    (t.modify ks f hKey).get k = (t.get k).map fun r => if k ∈ ks then f r else r := by
  have hMap : (t.modify ks f hKey).get k = (t.get k).map fun r =>
    if key r ∈ ks then f r else r := by
    refine find_map fun r => ?_
    split
    · exact hKey r
    · rfl
  rw [hMap]
  cases hFound : t.get k with
  | none => rfl
  | some r => simp only [Option.map_some, key_of_get hFound]

theorem get_modify_of_not_mem {ks : List κ} {f : ρ → ρ} {hKey : ∀ r, key (f r) = key r}
    (h : k ∉ ks) :
    (t.modify ks f hKey).get k = t.get k := by
  simp [get_modify, h]

theorem get_modify_of_mem {ks : List κ} {f : ρ → ρ} {hKey : ∀ r, key (f r) = key r} (h : k ∈ ks) :
    (t.modify ks f hKey).get k = (t.get k).map f := by
  simp [get_modify, h]

/-- `UPDATE … WHERE p`, seen from one key. -/
theorem get_modify_select {p : ρ → Bool} {f : ρ → ρ} (hKey : ∀ r, key (f r) = key r) :
    (t.modify ((t.select p).map key) f hKey).get k = (t.get k).map fun r =>
      if p r then f r else r := by
  rw [get_modify]
  refine Option.map_congr fun r hGet => ?_
  have hIff : k ∈ (t.select p).map key ↔ p r = true := by
    rw [mem_map_select, hGet]
    simp
  simp only [hIff]

theorem get_delete {p : ρ → Bool} : (t.delete p).get k = (t.get k).filter fun r => !p r := by
  cases hFound : t.get k with
  | none =>
    refine get_eq_none_iff.mpr fun r hr => ?_
    exact get_eq_none_iff.mp hFound r (List.mem_of_mem_filter hr)
  | some r =>
    obtain ⟨hMem, hKey⟩ := get_eq_some_iff.mp hFound
    cases hp : p r with
    | false =>
      simp only [Option.filter, hp, Bool.not_false, if_true]
      exact get_eq_some_iff.mpr ⟨List.mem_filter.mpr ⟨hMem, by simp [hp]⟩, hKey⟩
    | true =>
      simp only [Option.filter, hp, Bool.not_true, Bool.false_eq_true, if_false]
      rw [get_eq_none_iff]
      intro r' hr' hKey'
      obtain ⟨hMem', hp'⟩ := List.mem_filter.mp hr'
      have hEq := List.inj_on_of_nodup_map t.nodup hMem' hMem (hKey'.trans hKey.symm)
      simp [hEq, hp] at hp'

theorem rows_insert (h : t.get (key r) = none) : (t.insert r).rows = t.rows ++ [r] := by
  have hFresh : key r ∉ t.rows.map key := by
    intro hMem
    obtain ⟨r', hr', hKey⟩ := List.mem_map.mp hMem
    exact get_eq_none_iff.mp h r' hr' hKey
  unfold insert
  rw [dif_neg hFresh]

theorem get_insert : (t.insert r).get k = (t.get k).or (if key r = k then some r else none) := by
  cases hTaken : t.get (key r) with
  | none =>
    unfold get at hTaken ⊢
    rw [rows_insert hTaken, List.find?_append, List.find?_singleton]
    simp
  | some r' =>
    have hMem : key r ∈ t.rows.map key := by
      obtain ⟨hMem, hKey⟩ := get_eq_some_iff.mp hTaken
      exact List.mem_map.mpr ⟨r', hMem, hKey⟩
    unfold insert
    rw [dif_pos hMem]
    split
    · next hKey => rw [← hKey, hTaken, Option.some_or]
    · rw [Option.or_none]

theorem get_insertAll {rows : List ρ} :
    (rows.foldl insert t).get k = (t.get k).or (rows.find? fun r => key r = k) := by
  induction rows generalizing t with
  | nil => simp
  | cons r rest ih =>
    rw [List.foldl_cons, ih, get_insert, Option.or_assoc, List.find?_cons]
    congr 1
    by_cases hKey : key r = k <;> simp [hKey]

theorem rows_modify {ks : List κ} {f : ρ → ρ} {hKey : ∀ r, key (f r) = key r} :
    (t.modify ks f hKey).rows = t.rows.map fun r => if key r ∈ ks then f r else r := rfl

@[simp] theorem modify_nil {f : ρ → ρ} {hKey : ∀ r, key (f r) = key r} :
    t.modify [] f hKey = t := by
  rw [mk.injEq, rows_modify]
  simp

theorem modify_congr {ks ks' : List κ} {f : ρ → ρ} {hKey : ∀ r, key (f r) = key r}
    (h : ∀ k, k ∈ ks ↔ k ∈ ks') :
    t.modify ks f hKey = t.modify ks' f hKey := by
  rw [mk.injEq, rows_modify, rows_modify]
  refine List.map_congr_left fun r _ => ?_
  simp only [h]

theorem modify_modify {ks ks' : List κ} {f : ρ → ρ} {hKey : ∀ r, key (f r) = key r}
    (hTwice : ∀ r, f (f r) = f r) :
    (t.modify ks f hKey).modify ks' f hKey = t.modify (ks ++ ks') f hKey := by
  rw [mk.injEq, rows_modify, rows_modify, rows_modify, List.map_map]
  refine List.map_congr_left fun r _ => ?_
  by_cases hFirst : key r ∈ ks <;> by_cases hSecond : key r ∈ ks'
    <;> simp [hFirst, hSecond, hKey, hTwice]

theorem total_modify {ks : List κ} {f : ρ → ρ} {hKey : ∀ r, key (f r) = key r} {g : ρ → Nat} :
    (t.modify ks f hKey).total g = t.total fun r => if key r ∈ ks then g (f r) else g r := by
  unfold total
  rw [rows_modify, List.map_map]
  congr 1
  refine List.map_congr_left fun r _ => ?_
  simp only [Function.comp]
  split <;> rfl

theorem total_insert {g : ρ → Nat} (h : t.get (key r) = none) :
    (t.insert r).total g = t.total g + g r := by
  unfold total
  simp [rows_insert h]

theorem total_insertAll {rows : List ρ} {g : ρ → Nat} (h : ∀ r ∈ rows, g r = 0) :
    (rows.foldl insert t).total g = t.total g := by
  induction rows generalizing t with
  | nil => rfl
  | cons r rest ih =>
    rw [List.foldl_cons, ih fun r' hr' => h r' (List.mem_cons_of_mem _ hr')]
    cases hTaken : t.get (key r) with
    | none => rw [total_insert hTaken, h r List.mem_cons_self, Nat.add_zero]
    | some r' =>
      have hMem : key r ∈ t.rows.map key :=
        List.mem_map.mpr ⟨r', (get_eq_some_iff.mp hTaken).1, (get_eq_some_iff.mp hTaken).2⟩
      unfold insert
      rw [dif_pos hMem]

theorem total_of_keys {ks : List κ} {g : ρ → Nat} (hNodup : ks.Nodup) :
    (t.total fun r => if key r ∈ ks then g r else 0) =
      (ks.map fun k => ((t.get k).map g).getD 0).sum := by
  induction ks with
  | nil => simp [total]
  | cons k rest ih =>
    obtain ⟨hNot, hRest⟩ := List.nodup_cons.mp hNodup
    have hSplit : ∀ r ∈ t.rows, (if key r ∈ k :: rest then g r else 0) =
        (if key r = k then g r else 0) + (if key r ∈ rest then g r else 0) := by
      intro r _
      by_cases hKey : key r = k
      · subst hKey
        simp [hNot]
      · simp [hKey]
    rw [total_congr hSplit, total_add, ih hRest, List.map_cons, List.sum_cons]
    congr 1
    cases hFound : t.get k with
    | none =>
      have hZero : ∀ r ∈ t.rows, (if key r = k then g r else 0) = 0 := by
        intro r hr
        simp [get_eq_none_iff.mp hFound r hr]
      rw [total_congr hZero]
      simp [total]
    | some found =>
      obtain ⟨hMem, hKey⟩ := get_eq_some_iff.mp hFound
      obtain ⟨before, after, hRows⟩ := List.append_of_mem hMem
      have hApart := t.nodup
      rw [hRows, List.map_append, List.map_cons] at hApart
      have hOthers : ∀ r, r ∈ before ∨ r ∈ after → key r ≠ k := by
        rintro r (hr | hr) hSame
        · exact (List.nodup_append.mp hApart).2.2 _ (List.mem_map_of_mem hr) _ List.mem_cons_self
            (hSame.trans hKey.symm)
        · exact (List.nodup_cons.mp (List.nodup_append.mp hApart).2.1).1
            (List.mem_map.mpr ⟨r, hr, hSame.trans hKey.symm⟩)
      have hBefore : (before.map fun r => if key r = k then g r else 0).sum = 0 := by
        refine List.sum_eq_zero fun n hn => ?_
        obtain ⟨r, hr, rfl⟩ := List.mem_map.mp hn
        simp [hOthers r (.inl hr)]
      have hAfter : (after.map fun r => if key r = k then g r else 0).sum = 0 := by
        refine List.sum_eq_zero fun n hn => ?_
        obtain ⟨r, hr, rfl⟩ := List.mem_map.mp hn
        simp [hOthers r (.inr hr)]
      unfold total
      rw [hRows]
      simp [hBefore, hAfter, hKey]

end Table

end Pixaeron.Transactions
