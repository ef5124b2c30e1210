import Pixaeron.Bytes.Fields

/-! # TIFF blocks

What a reader finds in the first directory of a little-endian TIFF block.
-/

namespace Pixaeron.Bytes

structure TiffEntry where
  tag : Nat
  type : Nat
  count : Nat
  value : Nat

/-- A directory: where it is, its entries, and where the next one is. -/
structure TiffDirectory where
  offset : Nat
  entries : List TiffEntry
  next : Nat

def readTiffEntry (x : ByteString) : TiffEntry :=
  ⟨readUInt16LE x, readUInt16LE (x.drop 2), readUInt32LE (x.drop 4), readUInt32LE (x.drop 8)⟩

def readTiff (x : ByteString) : Option TiffDirectory :=
  let offset := readUInt32LE (x.drop 4)
  let count := readUInt16LE (x.drop offset)
  if x.take 2 = latin1 "II" ∧ readUInt16LE (x.drop 2) = 42 ∧ offset + 12 * count + 6 ≤ x.length then
    some ⟨offset, (List.range count).map fun i => readTiffEntry (x.drop (offset + 2 + 12 * i)),
      readUInt32LE (x.drop (offset + 2 + 12 * count))⟩
  else none

/-- A header, one directory with this entry only, and not a byte more. -/
def HoldsOnlyEntry (x : ByteString) (entry : TiffEntry) : Prop :=
  x.length = 26 ∧ readTiff x = some ⟨8, [entry], 0⟩

def TiffEntry.bytes (entry : TiffEntry) : ByteString :=
  uint16LE entry.tag ++ uint16LE entry.type ++ uint32LE entry.count ++ uint32LE entry.value

structure TiffEntry.Fits (entry : TiffEntry) : Prop where
  tag : entry.tag < 65536
  type : entry.type < 65536
  count : entry.count < 4294967296
  value : entry.value < 4294967296

section

variable {x : ByteString} {entry : TiffEntry}

theorem TiffEntry.length_bytes : entry.bytes.length = 12 := rfl

theorem TiffEntry.read_bytes (h : entry.Fits) (rest : ByteString) :
    readTiffEntry (entry.bytes ++ rest) = entry := by
  have hType : (entry.bytes ++ rest).drop 2 =
      uint16LE entry.type ++ (uint32LE entry.count ++ uint32LE entry.value ++ rest) := rfl
  have hCount : (entry.bytes ++ rest).drop 4 =
    uint32LE entry.count ++ (uint32LE entry.value ++ rest) := rfl
  have hValue : (entry.bytes ++ rest).drop 8 = uint32LE entry.value ++ rest := rfl
  rw [readTiffEntry, hType, hCount, hValue, readUInt16LE_uint16LE h.type,
    readUInt32LE_uint32LE h.count, readUInt32LE_uint32LE h.value, TiffEntry.bytes]
  simp only [List.append_assoc]
  rw [readUInt16LE_uint16LE h.tag]

theorem TiffEntry.bytes_read (h : 12 ≤ x.length) : (readTiffEntry x).bytes ++ x.drop 12 = x := by
  have hTag := uint16LE_field (show 2 ≤ x.length by omega)
  have hType := uint16LE_field (show 2 ≤ (x.drop 2).length by rw [List.length_drop]; omega)
  have hCount := uint32LE_field (show 4 ≤ (x.drop 4).length by rw [List.length_drop]; omega)
  have hValue := uint32LE_field (show 4 ≤ (x.drop 8).length by rw [List.length_drop]; omega)
  rw [List.drop_drop] at hType hCount hValue
  rw [readTiffEntry, TiffEntry.bytes]
  simp only [List.append_assoc]
  rw [hValue, hCount, hType, hTag]

theorem holdsOnlyEntry_iff (h : entry.Fits) : HoldsOnlyEntry x entry ↔
    x = latin1 "II" ++ uint16LE 42 ++ uint32LE 8 ++ uint16LE 1 ++ entry.bytes ++ uint32LE 0 := by
  constructor
  · rintro ⟨hLength, hRead⟩
    unfold readTiff at hRead
    dsimp only at hRead
    split at hRead
    swap
    · cases hRead
    next hHeader =>
    obtain ⟨hOrder, hMagic, -⟩ := hHeader
    simp only [Option.some.injEq, TiffDirectory.mk.injEq] at hRead
    obtain ⟨hOffset, hEntries, hNext⟩ := hRead
    rw [hOffset] at hEntries hNext
    have hCount : readUInt16LE (x.drop 8) = 1 := by simpa using congrArg List.length hEntries
    rw [hCount] at hEntries hNext
    have hEntry : readTiffEntry (x.drop 10) = entry := List.head_eq_of_cons_eq hEntries
    have hAt (n : Nat) : (x.drop n).length = 26 - n := by rw [List.length_drop, hLength]
    have h2 := uint16LE_field (show 2 ≤ (x.drop 2).length by rw [hAt]; omega)
    have h4 := uint32LE_field (show 4 ≤ (x.drop 4).length by rw [hAt]; omega)
    have h8 := uint16LE_field (show 2 ≤ (x.drop 8).length by rw [hAt]; omega)
    have h10 := TiffEntry.bytes_read (show 12 ≤ (x.drop 10).length by rw [hAt]; omega)
    have h22 := uint32LE_field (show 4 ≤ (x.drop 22).length by rw [hAt])
    rw [List.drop_drop] at h2 h4 h8 h10 h22
    rw [hMagic] at h2
    rw [hOffset] at h4
    rw [hCount] at h8
    rw [hEntry] at h10
    rw [hNext, List.drop_eq_nil_of_le hLength.le, List.append_nil] at h22
    conv_lhs => rw [← List.take_append_drop 2 x, hOrder, ← h2, ← h4, ← h8, ← h10, ← h22]
    simp only [List.append_assoc]
  · rintro rfl
    have hFound : readTiff (latin1 "II" ++ uint16LE 42 ++ uint32LE 8 ++ uint16LE 1 ++ entry.bytes ++
      uint32LE 0) =
        some ⟨8, [readTiffEntry (entry.bytes ++ uint32LE 0)], 0⟩ := by
      unfold readTiff
      exact if_pos ⟨rfl, rfl, le_rfl⟩
    rw [TiffEntry.read_bytes h] at hFound
    exact ⟨rfl, hFound⟩

end

end Pixaeron.Bytes
