import Mathlib.Logic.Function.Basic
import Mathlib.Data.String.Basic
import Mathlib.Tactic.Common

/-! # Keys that expire

A store of numbers under keys. A key with a time to live is there until that has run out, and then
it is gone; an entry that is gone is still in the table until the key is written again, but no
command sees it. -/

namespace Pixaeron.Expiry

structure Entry where
  value : Nat
  expiresAt : Option Nat
deriving DecidableEq

def Entry.Live (e : Entry) (now : Nat) : Prop := ∀ t ∈ e.expiresAt, now < t

instance (e : Entry) (now : Nat) : Decidable (e.Live now) :=
  inferInstanceAs (Decidable (∀ t ∈ e.expiresAt, now < t))

abbrev KeyStore := String → Option Entry

namespace KeyStore

def empty : KeyStore := fun _ => none

def get (s : KeyStore) (now : Nat) (key : String) : Option Entry := (s key).filter (·.Live now)

/-- `PTTL`: −2 without the key, −1 for a key that does not expire. -/
def pttl (s : KeyStore) (now : Nat) (key : String) : Int :=
  match s.get now key with
  | none => -2
  | some e =>
    match e.expiresAt with
    | none => -1
    | some t => (t - now : Nat)

/-- `INCR`: the time to live stays what it is. -/
def incr (s : KeyStore) (now : Nat) (key : String) : Nat × KeyStore :=
  match s.get now key with
  | none => (1, Function.update s key (some ⟨1, none⟩))
  | some e => (e.value + 1, Function.update s key (some ⟨e.value + 1, e.expiresAt⟩))

/-- `PEXPIRE` -/
def pexpire (s : KeyStore) (now : Nat) (key : String) (ms : Nat) : KeyStore :=
  match s.get now key with
  | none => s
  | some e => Function.update s key (some { e with expiresAt := some (now + ms) })

/-- `SET … PX` -/
def setPx (s : KeyStore) (now : Nat) (key : String) (value ms : Nat) : KeyStore :=
  Function.update s key (some ⟨value, some (now + ms)⟩)

/-- `SET … PX … NX` -/
def setPxNx (s : KeyStore) (now : Nat) (key : String) (value ms : Nat) : KeyStore :=
  if (s.get now key).isSome then s else s.setPx now key value ms

def del (s : KeyStore) (keys : List String) : KeyStore :=
  fun key => if key ∈ keys then none else s key

/-- A counter whose first increment starts its time to live. -/
def count (s : KeyStore) (now : Nat) (key : String) (ms : Nat) : Nat × KeyStore :=
  let (n, s) := s.incr now key
  (n, if n = 1 then s.pexpire now key ms else s)

section

variable {s : KeyStore} {now : Nat} {key other : String} {e : Entry} {value ms : Nat}

theorem pttl_pos : 0 < s.pttl now key ↔ ∃ value t, s key = some ⟨value, some t⟩ ∧ now < t := by
  rw [pttl, get]
  rcases hEntry : s key with _ | ⟨value, _ | t⟩
  · simp
  · simp [Option.filter, Entry.Live]
  · by_cases hLive : now < t
    · have hKept : (some (⟨value, some t⟩ : Entry)).filter (fun e => decide (e.Live now)) =
        some ⟨value, some t⟩ := by
        simp [Option.filter, Entry.Live, hLive]
      rw [hKept]
      simp only [Option.some.injEq, Entry.mk.injEq]
      constructor
      · intro _
        exact ⟨value, t, ⟨rfl, rfl⟩, hLive⟩
      · intro _
        omega
    · have hGone : (some (⟨value, some t⟩ : Entry)).filter (fun e => decide (e.Live now)) =
        none := by
        simp [Option.filter, Entry.Live, hLive]
      rw [hGone]
      constructor
      · intro h
        cases h
      · rintro ⟨_, _, hSame, hLater⟩
        simp only [Option.some.injEq, Entry.mk.injEq] at hSame
        omega

@[simp] theorem setPx_self : s.setPx now key value ms key = some ⟨value, some (now + ms)⟩ :=
  Function.update_self ..

@[simp] theorem setPx_other (h : other ≠ key) : s.setPx now key value ms other = s other :=
  Function.update_of_ne h ..

theorem incr_other (h : other ≠ key) : (s.incr now key).2 other = s other := by
  rw [incr]
  split <;> exact Function.update_of_ne h ..

theorem pexpire_other (h : other ≠ key) : s.pexpire now key ms other = s other := by
  rw [pexpire]
  cases s.get now key with
  | none => rfl
  | some e => exact Function.update_of_ne h ..

@[simp] theorem count_other (h : other ≠ key) : (s.count now key ms).2 other = s other := by
  rw [count]
  dsimp only
  split
  · rw [pexpire_other h, incr_other h]
  · exact incr_other h

theorem count_gone (h : s.get now key = none) :
    (s.count now key ms).1 = 1 ∧ (s.count now key ms).2 key = some ⟨1, some (now + ms)⟩ := by
  have hIncr : s.incr now key = (1, Function.update s key (some ⟨1, none⟩)) := by
    rw [incr, h]
  rw [count, hIncr]
  refine ⟨rfl, ?_⟩
  simp [pexpire, get, Option.filter, Entry.Live]

theorem count_there (h : s key = some e) (hLive : e.Live now) (hPos : 0 < e.value) :
    (s.count now key ms).1 = e.value + 1 ∧
    (s.count now key ms).2 key = some ⟨e.value + 1, e.expiresAt⟩ := by
  have hGet : s.get now key = some e := by simp [get, h, Option.filter, hLive]
  have hIncr : s.incr now key = (e.value + 1,
    Function.update s key (some ⟨e.value + 1, e.expiresAt⟩)) := by
    rw [incr, hGet]
  rw [count, hIncr]
  refine ⟨rfl, ?_⟩
  dsimp only
  rw [if_neg (by omega), Function.update_self]

theorem get_none_of_expired {t : Nat} (h : s key = some ⟨value, some t⟩)
    (hGone : t ≤ now) : s.get now key = none := by
  simp [get, h, Option.filter, Entry.Live, hGone]

theorem get_none (h : s key = none) : s.get now key = none := by simp [get, h]

/-- `NX` writes only where nothing is there. -/
theorem setPxNx_self : s.setPxNx now key value ms key = s key ∨
    (s.get now key = none ∧ s.setPxNx now key value ms key = some ⟨value, some (now + ms)⟩) := by
  rw [setPxNx]
  split
  · exact .inl rfl
  · next hNone => exact .inr ⟨by simpa using hNone, setPx_self⟩

@[simp] theorem setPxNx_other (h : other ≠ key) : s.setPxNx now key value ms other = s other := by
  rw [setPxNx]
  split
  · rfl
  · exact setPx_other h

end

/-! ## Counting in windows -/

/-- One event more: it opens a window where none is open. -/
def addToWindow (span : Nat) (w : List Nat) (time : Nat) : List Nat :=
  match w with
  | [] => [time]
  | first :: _ => if first + span ≤ time then [time] else w ++ [time]

/-- The counter of the last window. -/
inductive Counts (span now : Nat) : List Nat → Option Entry → Prop
  | fresh : Counts span now [] none
  | counting {first : Nat} {later : List Nat} (hFirst : first ≤ now) :
      Counts span now (first :: later) (some ⟨(first :: later).length, some (first + span)⟩)

theorem Counts.mono {span now later : Nat} {w : List Nat} {counter : Option Entry}
    (h : Counts span now w counter) (hLater : now ≤ later) : Counts span later w counter := by
  cases h with
  | fresh => exact .fresh
  | counting hFirst => exact .counting (hFirst.trans hLater)

theorem Counts.head_le {span now first : Nat} {w : List Nat} {counter : Option Entry}
    (h : Counts span now w counter) (hFirst : w.head? = some first) : first ≤ now := by
  cases h with
  | fresh => cases hFirst
  | counting hNow =>
    cases hFirst
    exact hNow

theorem Counts.count {s : KeyStore} {span now : Nat} {w : List Nat} {key : String}
    (h : Counts span now w (s key)) :
    (s.count now key span).1 = (addToWindow span w now).length ∧
      Counts span now (addToWindow span w now) ((s.count now key span).2 key) := by
  generalize hCounter : s key = counter at h
  cases h with
  | fresh =>
    obtain ⟨hCount, hKey⟩ := @count_gone s now key span (get_none hCounter)
    rw [hCount, hKey]
    exact ⟨rfl, .counting le_rfl⟩
  | @counting first rest hFirst =>
    by_cases hGone : first + span ≤ now
    · obtain ⟨hCount, hKey⟩ := @count_gone s now key span (get_none_of_expired hCounter hGone)
      rw [hCount, hKey, addToWindow, if_pos hGone]
      exact ⟨rfl, .counting le_rfl⟩
    · obtain ⟨hCount, hKey⟩ :=
        @count_there s now key _ span hCounter (by simpa [Entry.Live] using hGone) (Nat.succ_pos _)
      have hGrown : addToWindow span (first :: rest) now = first :: (rest ++ [now]) := if_neg hGone
      have hLength : (first :: (rest ++ [now])).length = (first :: rest).length + 1 := by simp
      rw [hCount, hKey, hGrown, ← hLength]
      exact ⟨rfl, .counting hFirst⟩

theorem key_ne {p q ending other : String} (hEnding : ending.toList ≠ [])
    (hOther : other.toList ≠ []) (h : ending.toList.getLast? ≠ other.toList.getLast?) :
    p ++ ending ≠ q ++ other := by
  intro hSame
  have hLast := congrArg (fun key : String => key.toList.getLast?) hSame
  simp only [String.toList_append, List.getLast?_append] at hLast
  rw [List.getLast?_eq_some_getLast hEnding, List.getLast?_eq_some_getLast hOther] at hLast h
  exact h hLast

theorem key_ne_of_prefix {p q x y : String} {i : Nat} (hp : i < p.toList.length)
    (hq : i < q.toList.length) (h : p.toList[i]? ≠ q.toList[i]?) : p ++ x ≠ q ++ y := by
  intro hSame
  have hAt := congrArg (fun key : String => key.toList[i]?) hSame
  simp only [String.toList_append, List.getElem?_append_left hp,
    List.getElem?_append_left hq] at hAt
  exact h hAt

end KeyStore

end Pixaeron.Expiry
