import Mathlib.Data.List.Basic
import Mathlib.Data.UInt
import Mathlib.Tactic.Common

/-! # Byte strings

Fixed-width fields of byte strings, and the search for a pattern in one. Reading beyond the end of
a string gives zero; callers look at the length first.
-/

namespace Pixaeron.Bytes

abbrev ByteString := List UInt8

def uint16BE (n : Nat) : ByteString := [UInt8.ofNat (n / 256), UInt8.ofNat n]

def uint16LE (n : Nat) : ByteString := [UInt8.ofNat n, UInt8.ofNat (n / 256)]

def uint32LE (n : Nat) : ByteString :=
  [UInt8.ofNat n, UInt8.ofNat (n / 256), UInt8.ofNat (n / 65536), UInt8.ofNat (n / 16777216)]

def uint32BE (n : Nat) : ByteString :=
  [UInt8.ofNat (n / 16777216), UInt8.ofNat (n / 65536), UInt8.ofNat (n / 256), UInt8.ofNat n]

def readUInt16BE : ByteString → Nat
  | high :: low :: _ => high.toNat * 256 + low.toNat
  | _ => 0

def readUInt16LE : ByteString → Nat
  | low :: high :: _ => low.toNat + high.toNat * 256
  | _ => 0

def readUInt32LE : ByteString → Nat
  | a :: b :: c :: d :: _ => a.toNat + b.toNat * 256 + c.toNat * 65536 + d.toNat * 16777216
  | _ => 0

def readUInt32BE : ByteString → Nat
  | a :: b :: c :: d :: _ => a.toNat * 16777216 + b.toNat * 65536 + c.toNat * 256 + d.toNat
  | _ => 0

def subarray (x : ByteString) (first last : Nat) : ByteString := (x.drop first).take (last - first)

/-- Characters of one byte each, as in latin1. -/
def latin1 (text : String) : ByteString := text.toList.map fun c => UInt8.ofNat c.toNat

/-- Where the pattern, which is not empty, stands first. -/
def indexOf (pattern : ByteString) : ByteString → Option Nat
  | [] => none
  | b :: rest =>
    if pattern.isPrefixOf (b :: rest) then some 0 else (indexOf pattern rest).map (· + 1)

section Fields

variable {n : Nat} {rest : ByteString}

theorem readUInt16BE_uint16BE (h : n < 65536) : readUInt16BE (uint16BE n ++ rest) = n := by
  simp only [uint16BE, List.cons_append, List.nil_append, readUInt16BE, UInt8.toNat_ofNat']
  omega

theorem readUInt16LE_uint16LE (h : n < 65536) : readUInt16LE (uint16LE n ++ rest) = n := by
  simp only [uint16LE, List.cons_append, List.nil_append, readUInt16LE, UInt8.toNat_ofNat']
  omega

theorem readUInt32LE_uint32LE (h : n < 4294967296) : readUInt32LE (uint32LE n ++ rest) = n := by
  simp only [uint32LE, List.cons_append, List.nil_append, readUInt32LE, UInt8.toNat_ofNat']
  omega

theorem uint16BE_read (high low : UInt8) :
    uint16BE (high.toNat * 256 + low.toNat) = [high, low] := by
  have hHigh := high.toNat_lt
  have hLow := low.toNat_lt
  rw [uint16BE, List.cons.injEq, List.cons.injEq]
  refine ⟨?_, ?_, rfl⟩
  · rw [← UInt8.toNat_inj, UInt8.toNat_ofNat']
    omega
  · rw [← UInt8.toNat_inj, UInt8.toNat_ofNat']
    omega

theorem uint16LE_read (low high : UInt8) :
    uint16LE (low.toNat + high.toNat * 256) = [low, high] := by
  rw [Nat.add_comm, uint16LE, ← List.reverse_inj]
  exact uint16BE_read high low

theorem uint32LE_read (a b c d : UInt8) :
    uint32LE (a.toNat + b.toNat * 256 + c.toNat * 65536 + d.toNat * 16777216) = [a, b, c, d] := by
  have ha := a.toNat_lt
  have hb := b.toNat_lt
  have hc := c.toNat_lt
  have hd := d.toNat_lt
  simp only [uint32LE, List.cons.injEq, ← UInt8.toNat_inj, UInt8.toNat_ofNat', and_true]
  refine ⟨?_, ?_, ?_, ?_⟩ <;> omega

theorem readUInt32BE_uint32BE (h : n < 4294967296) : readUInt32BE (uint32BE n ++ rest) = n := by
  simp only [uint32BE, List.cons_append, List.nil_append, readUInt32BE, UInt8.toNat_ofNat']
  omega

theorem uint32BE_read (a b c d : UInt8) :
    uint32BE (a.toNat * 16777216 + b.toNat * 65536 + c.toNat * 256 + d.toNat) = [a, b, c, d] := by
  have ha := a.toNat_lt
  have hb := b.toNat_lt
  have hc := c.toNat_lt
  have hd := d.toNat_lt
  simp only [uint32BE, List.cons.injEq, ← UInt8.toNat_inj, UInt8.toNat_ofNat', and_true]
  refine ⟨?_, ?_, ?_, ?_⟩ <;> omega

theorem readUInt32BE_lt (x : ByteString) : readUInt32BE x < 4294967296 := by
  unfold readUInt32BE
  split
  · next a b c d _ =>
    have := a.toNat_lt
    have := b.toNat_lt
    have := c.toNat_lt
    have := d.toNat_lt
    omega
  · decide

theorem exists_field {x : ByteString} (h : 4 ≤ x.length) :
    ∃ tail, x = uint32BE (readUInt32BE x) ++ tail := by
  match x, h with
  | a :: b :: c :: d :: tail, _ => exact ⟨tail, by rw [readUInt32BE, uint32BE_read]; rfl⟩

theorem uint16LE_field {x : ByteString} (h : 2 ≤ x.length) :
    uint16LE (readUInt16LE x) ++ x.drop 2 = x := by
  match x, h with
  | low :: high :: tail, _ =>
    rw [readUInt16LE, uint16LE_read]
    rfl

theorem uint32LE_field {x : ByteString} (h : 4 ≤ x.length) :
    uint32LE (readUInt32LE x) ++ x.drop 4 = x := by
  match x, h with
  | a :: b :: c :: d :: tail, _ =>
    rw [readUInt32LE, uint32LE_read]
    rfl

@[simp] theorem length_uint16BE : (uint16BE n).length = 2 := rfl

@[simp] theorem length_uint16LE : (uint16LE n).length = 2 := rfl

@[simp] theorem length_uint32LE : (uint32LE n).length = 4 := rfl

@[simp] theorem length_uint32BE : (uint32BE n).length = 4 := rfl

end Fields

/-! ## Places in a string -/

section Places

variable {x before rest : ByteString} {n i j : Nat}

theorem exists_split (h : n ≤ x.length) : ∃ before rest, x = before ++ rest ∧ before.length = n :=
  ⟨x.take n, x.drop n, (List.take_append_drop n x).symm, List.length_take_of_le h⟩

theorem subarray_append :
    subarray (before ++ rest) (before.length + i) (before.length + j) = subarray rest i j := by
  rw [subarray, subarray, Nat.add_sub_add_left, ← List.drop_drop, List.drop_left]

theorem getElem?_append_add : (before ++ rest)[before.length + i]? = rest[i]? := by
  rw [List.getElem?_append_right (Nat.le_add_right ..), Nat.add_sub_cancel_left]

theorem subarray_field {field : ByteString} (hFirst : i = before.length)
    (hLast : j = i + field.length) :
    subarray (before ++ (field ++ rest)) i j = field := by
  rw [subarray, hLast, hFirst, Nat.add_sub_cancel_left, List.drop_left, List.take_left]

theorem length_le_flatMap {α : Type} {f : α → ByteString} (parts : List α)
    (h : ∀ part, 0 < (f part).length) :
    parts.length ≤ (parts.flatMap f).length := by
  induction parts with
  | nil => exact le_rfl
  | cons part parts ih =>
    have hOne := h part
    rw [List.flatMap_cons, List.length_append, List.length_cons]
    omega

end Places

/-! ## Searching -/

section Search

variable {pattern x rest before after : ByteString} {e : Nat}

theorem indexOf_eq_some (h : indexOf pattern x = some e) :
    ∃ before after, x = before ++ pattern ++ after ∧ before.length = e := by
  induction x generalizing e with
  | nil => cases h
  | cons b rest ih =>
    rw [indexOf] at h
    split at h
    · next hHere =>
      cases h
      obtain ⟨after, hAfter⟩ := List.isPrefixOf_iff_prefix.mp hHere
      exact ⟨[], after, by rw [List.nil_append, hAfter], rfl⟩
    · obtain ⟨e', hRest, rfl⟩ := Option.map_eq_some_iff.mp h
      obtain ⟨before, after, rfl, rfl⟩ := ih hRest
      exact ⟨b :: before, after, rfl, rfl⟩

theorem indexOf_pattern (h : pattern ≠ []) : indexOf pattern (pattern ++ rest) = some 0 := by
  cases pattern with
  | nil => exact absurd rfl h
  | cons c cs =>
    rw [List.cons_append, indexOf, if_pos]
    exact List.isPrefixOf_iff_prefix.mpr ⟨rest, rfl⟩

theorem indexOf_append (hPattern : pattern ≠ [])
    (h : indexOf pattern (before ++ pattern ++ after) = some before.length) :
    indexOf pattern (before ++ pattern ++ rest) = some before.length := by
  induction before with
  | nil => exact indexOf_pattern hPattern
  | cons b tail ih =>
    rw [List.cons_append, List.cons_append, indexOf] at h ⊢
    split at h
    · cases h
    · next hNot =>
      obtain ⟨e', hRest, hLength⟩ := Option.map_eq_some_iff.mp h
      rw [List.length_cons, Nat.add_right_cancel_iff] at hLength
      rw [ih (by rw [hRest, hLength]), if_neg]
      · rfl
      · intro hHere
        have hPrefix : pattern <+: b :: tail ++ pattern :=
          List.prefix_of_prefix_length_le (List.isPrefixOf_iff_prefix.mp hHere) ⟨rest, rfl⟩
            (by rw [List.length_append, List.length_cons]; omega)
        exact hNot (List.isPrefixOf_iff_prefix.mpr (hPrefix.trans ⟨after, rfl⟩))

theorem le_of_occurs (h : indexOf pattern x = some e) (hOccurs : x = before ++ pattern ++ after)
    (hPattern : pattern ≠ []) : e ≤ before.length := by
  induction before generalizing x e with
  | nil =>
    rw [hOccurs, List.nil_append, indexOf_pattern hPattern] at h
    cases h
    exact Nat.zero_le _
  | cons b tail ih =>
    rw [hOccurs, List.cons_append, List.cons_append, indexOf] at h
    split at h
    · cases h
      exact Nat.zero_le _
    · obtain ⟨e', hRest, rfl⟩ := Option.map_eq_some_iff.mp h
      exact Nat.succ_le_succ (ih hRest rfl)

theorem exists_indexOf (hOccurs : x = before ++ pattern ++ after) (hPattern : pattern ≠ []) :
    ∃ e, indexOf pattern x = some e := by
  induction before generalizing x with
  | nil => exact ⟨0, by rw [hOccurs, List.nil_append, indexOf_pattern hPattern]⟩
  | cons b tail ih =>
    obtain ⟨e, hRest⟩ := ih rfl
    rw [hOccurs, List.cons_append, List.cons_append, indexOf, hRest]
    split
    · exact ⟨0, rfl⟩
    · exact ⟨e + 1, rfl⟩

end Search

end Pixaeron.Bytes
