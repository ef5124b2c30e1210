import Pixaeron.Worker.Cleanliness

/-! # The chunks of a PNG file

The walk accepts a file that is made of allowed chunks and an end chunk. It does not look at how
long the end chunk is, as long as the file ends with it. -/

namespace Pixaeron.Worker

open Bytes

@[ext] structure PngChunk where
  chunkType : ByteString
  data : ByteString
  crc : ByteString
  type_length : chunkType.length = 4
  crc_length : crc.length = 4
  fits : data.length < 4294967296

namespace PngChunk

def bytes (c : PngChunk) : ByteString := uint32BE c.data.length ++ c.chunkType ++ c.data ++ c.crc

def isClean (c : PngChunk) : Bool := pngCleanChunks.contains c.chunkType

def isEnd (c : PngChunk) : Bool := c.chunkType = latin1 "IEND"

end PngChunk

/-- Eight bytes, allowed chunks, and the end chunk up to the end of the file. -/
def EndsWith (x : ByteString) (final : PngChunk) : Prop :=
  final.isEnd ∧ ∃ (lead : ByteString) (chunks : List PngChunk), lead.length = 8 ∧
    (∀ c ∈ chunks, c.isClean) ∧
    x = lead ++ chunks.flatMap PngChunk.bytes ++ final.bytes

def IsCleanPng (x : ByteString) : Prop := ∃ final, EndsWith x final ∧ final.data = []

section

variable {c d final last : PngChunk} {chunks others : List PngChunk}
  {before rest tail x : ByteString} {rounds : Nat}

theorem PngChunk.length_bytes (c : PngChunk) : c.bytes.length = 12 + c.data.length := by
  rw [bytes, List.length_append, List.length_append, List.length_append, c.type_length,
    c.crc_length, length_uint32BE]
  omega

theorem PngChunk.read_length (c : PngChunk) {r : ByteString} :
    readUInt32BE (c.bytes ++ r) = c.data.length := by
  rw [bytes, List.append_assoc, List.append_assoc, List.append_assoc, readUInt32BE_uint32BE c.fits]

theorem PngChunk.read_type (c : PngChunk) {r : ByteString} :
    subarray (c.bytes ++ r) 4 8 = c.chunkType := by
  rw [bytes, List.append_assoc, List.append_assoc, List.append_assoc, subarray,
    List.drop_left' length_uint32BE, List.take_left' c.type_length]

theorem PngChunk.bytes_inj {r t : ByteString} (h : c.bytes ++ r = d.bytes ++ t) :
    c = d ∧ r = t := by
  have hLength : c.data.length = d.data.length := by rw [← c.read_length (r := r), h, d.read_length]
  have hType : c.chunkType = d.chunkType := by rw [← c.read_type (r := r), h, d.read_type]
  obtain ⟨hBytes, hRest⟩ := List.append_inj h (by rw [c.length_bytes, d.length_bytes, hLength])
  have hFields : c.data ++ c.crc = d.data ++ d.crc := by
    have hAll := hBytes
    rw [bytes, bytes, hLength, hType, List.append_assoc, List.append_assoc, List.append_assoc,
      List.append_assoc] at hAll
    exact List.append_cancel_left (List.append_cancel_left hAll)
  obtain ⟨hData, hCrc⟩ := List.append_inj hFields hLength
  exact ⟨PngChunk.ext hType hData hCrc, hRest⟩

theorem PngChunk.not_clean (h : c.isEnd) : ¬ c.isClean := by
  intro hClean
  rw [isEnd, decide_eq_true_iff] at h
  rw [isClean, h] at hClean
  revert hClean
  decide

theorem chunks_unique (hFinal : final.isEnd) (hLast : last.isEnd) (h : ∀ c ∈ chunks, c.isClean)
    (h' : ∀ c ∈ others, c.isClean)
    (hSame : chunks.flatMap PngChunk.bytes ++ final.bytes =
      others.flatMap PngChunk.bytes ++ last.bytes) : final = last := by
  induction chunks generalizing others with
  | nil =>
    cases others with
    | nil => exact (PngChunk.bytes_inj (r := []) (t := []) (by simpa using hSame)).1
    | cons d others =>
      obtain ⟨rfl, -⟩ := PngChunk.bytes_inj (c := final) (r := []) (by simpa using hSame)
      exact absurd (h' final (List.mem_cons_self ..)) (PngChunk.not_clean hFinal)
  | cons c chunks ih =>
    cases others with
    | nil =>
      obtain ⟨rfl, -⟩ := PngChunk.bytes_inj (d := last) (t := []) (by simpa using hSame)
      exact absurd (h c (List.mem_cons_self ..)) (PngChunk.not_clean hLast)
    | cons d others =>
      rw [List.flatMap_cons, List.flatMap_cons, List.append_assoc, List.append_assoc] at hSame
      obtain ⟨-, hRest⟩ := PngChunk.bytes_inj hSame
      exact ih (fun c hc => h c (List.mem_cons_of_mem _ hc))
        (fun c hc => h' c (List.mem_cons_of_mem _ hc)) hRest

theorem EndsWith.unique (h : EndsWith x final) (h' : EndsWith x last) : final = last := by
  obtain ⟨hFinal, lead, chunks, hLead, hChunks, rfl⟩ := h
  obtain ⟨hLast, front, others, hFront, hOthers, hSame⟩ := h'
  rw [List.append_assoc, List.append_assoc] at hSame
  exact chunks_unique hFinal hLast hChunks hOthers
    (List.append_inj hSame (hLead.trans hFront.symm)).2

/-! ## The walk -/

theorem onlyCleanPng_chunk : onlyCleanPng (before ++ (c.bytes ++ rest)) (rounds + 1) before.length =
    if c.isEnd then decide (rest = [])
    else if c.isClean then onlyCleanPng (before ++ (c.bytes ++ rest)) rounds
      (before.length + c.bytes.length) else false := by
  have hInside : before.length + 8 ≤ (before ++ (c.bytes ++ rest)).length := by
    rw [List.length_append, List.length_append, c.length_bytes]
    omega
  have hType : subarray (before ++ (c.bytes ++ rest)) (before.length + 4) (before.length + 8) =
    c.chunkType := by
    rw [subarray_append, c.read_type]
  have hLast : (before.length + (12 + c.data.length) = (before ++ (c.bytes ++ rest)).length) =
    (rest = []) := by
    rw [List.length_append, List.length_append, c.length_bytes, ← List.length_eq_zero_iff]
    apply propext
    omega
  rw [onlyCleanPng, if_pos hInside]
  simp only [List.drop_left, c.read_length, hType, hLast, PngChunk.isEnd, PngChunk.isClean,
    c.length_bytes, decide_eq_true_eq, Bool.not_eq_true', Nat.add_assoc]
  cases pngCleanChunks.contains c.chunkType <;> simp

theorem exists_pngChunk (h : 12 + readUInt32BE rest ≤ rest.length) :
    ∃ (c : PngChunk) (tail : ByteString), rest = c.bytes ++ tail := by
  obtain ⟨body, hRest⟩ := exists_field (x := rest) (by omega)
  have hFits := readUInt32BE_lt rest
  generalize readUInt32BE rest = n at hRest hFits h
  subst hRest
  rw [List.length_append, length_uint32BE] at h
  obtain ⟨chunkType, afterType, rfl, hType⟩ := exists_split (x := body) (n := 4) (by omega)
  rw [List.length_append, hType] at h
  obtain ⟨data, afterData, rfl, rfl⟩ := exists_split (x := afterType) (n := n) (by omega)
  rw [List.length_append] at h
  obtain ⟨crc, tail, rfl, hCrc⟩ := exists_split (x := afterData) (n := 4) (by omega)
  exact ⟨⟨chunkType, data, crc, hType, hCrc, hFits⟩, tail, by simp [PngChunk.bytes]⟩

theorem onlyCleanPng_truncated (h : rest.length < 12 + readUInt32BE rest) :
    onlyCleanPng (before ++ rest) rounds before.length = false := by
  cases rounds with
  | zero => rfl
  | succ rounds =>
    rw [onlyCleanPng]
    simp only [List.drop_left, List.length_append]
    split
    · split
      · exact decide_eq_false (by omega)
      · split
        · rfl
        · cases rounds with
          | zero => rfl
          | succ rounds =>
            rw [onlyCleanPng, if_neg]
            rw [List.length_append]
            omega
    · rfl

theorem onlyCleanPng_iff (hRounds : rest.length < rounds) :
    onlyCleanPng (before ++ rest) rounds before.length = true ↔
    ∃ (chunks : List PngChunk) (final : PngChunk), (∀ c ∈ chunks, c.isClean) ∧ final.isEnd ∧
      rest = chunks.flatMap PngChunk.bytes ++ final.bytes := by
  induction rounds generalizing before rest with
  | zero => omega
  | succ rounds ih =>
    rcases Nat.lt_or_ge rest.length (12 + readUInt32BE rest) with hShort | hLong
    · rw [onlyCleanPng_truncated hShort]
      constructor
      · intro h
        cases h
      · rintro ⟨chunks, final, -, -, rfl⟩
        cases chunks with
        | nil =>
          have hSize := final.read_length (r := [])
          rw [List.append_nil] at hSize
          rw [List.flatMap_nil, List.nil_append, final.length_bytes, hSize] at hShort
          omega
        | cons c chunks =>
          rw [List.flatMap_cons, List.append_assoc, c.read_length, List.length_append,
            c.length_bytes] at hShort
          omega
    · obtain ⟨c, tail, rfl⟩ := exists_pngChunk hLong
      rw [onlyCleanPng_chunk]
      rw [List.length_append, c.length_bytes] at hRounds
      have hNext := @ih (before ++ c.bytes) tail (by omega)
      rw [List.append_assoc, List.length_append] at hNext
      split
      · next hEnd =>
        rw [decide_eq_true_iff]
        constructor
        · rintro rfl
          exact ⟨[], c, by simp, hEnd, by simp⟩
        · rintro ⟨chunks, final, hChunks, hFinal, hSame⟩
          cases chunks with
          | nil => exact (PngChunk.bytes_inj (t := []) (by simpa using hSame)).2
          | cons d chunks =>
            rw [List.flatMap_cons, List.append_assoc] at hSame
            obtain ⟨rfl, -⟩ := PngChunk.bytes_inj hSame
            exact absurd (hChunks c (List.mem_cons_self ..)) (PngChunk.not_clean hEnd)
      · next hNotEnd =>
        split
        · next hClean =>
          rw [hNext]
          constructor
          · rintro ⟨chunks, final, hChunks, hFinal, rfl⟩
            refine ⟨c :: chunks, final, ?_, hFinal, by simp⟩
            rintro d (_ | ⟨_, hd⟩)
            · exact hClean
            · exact hChunks d hd
          · rintro ⟨chunks, final, hChunks, hFinal, hSame⟩
            cases chunks with
            | nil =>
              obtain ⟨rfl, -⟩ := PngChunk.bytes_inj (t := []) (by simpa using hSame)
              exact absurd hFinal hNotEnd
            | cons d chunks =>
              rw [List.flatMap_cons, List.append_assoc] at hSame
              obtain ⟨rfl, rfl⟩ := PngChunk.bytes_inj hSame
              exact ⟨chunks, final, fun d hd => hChunks d (List.mem_cons_of_mem _ hd), hFinal, rfl⟩
        · next hNotClean =>
          constructor
          · intro h
            cases h
          · rintro ⟨chunks, final, hChunks, hFinal, hSame⟩
            cases chunks with
            | nil =>
              obtain ⟨rfl, -⟩ := PngChunk.bytes_inj (t := []) (by simpa using hSame)
              exact absurd hFinal hNotEnd
            | cons d chunks =>
              rw [List.flatMap_cons, List.append_assoc] at hSame
              obtain ⟨rfl, -⟩ := PngChunk.bytes_inj hSame
              exact absurd (hChunks c (List.mem_cons_self ..)) hNotClean

theorem carriesOnlyAllowedTypes_png :
    carriesOnlyAllowedTypes .png x = .ok true ↔ ∃ final, EndsWith x final := by
  rw [carriesOnlyAllowedTypes, Except.ok.injEq]
  rcases Nat.lt_or_ge x.length 8 with hShort | hLong
  · constructor
    · intro h
      rw [onlyCleanPng, if_neg (by omega)] at h
      cases h
    · rintro ⟨final, -, lead, chunks, hLead, -, rfl⟩
      rw [List.length_append, List.length_append] at hShort
      omega
  · obtain ⟨lead, rest, rfl, hLead⟩ := exists_split hLong
    rw [← hLead, onlyCleanPng_iff (by rw [List.length_append]; omega)]
    constructor
    · rintro ⟨chunks, final, hChunks, hFinal, rfl⟩
      exact ⟨final, hFinal, lead, chunks, hLead, hChunks, (List.append_assoc ..).symm⟩
    · rintro ⟨final, hFinal, front, chunks, hFront, hChunks, hSame⟩
      rw [List.append_assoc] at hSame
      exact ⟨chunks, final, hChunks, hFinal, (List.append_inj hSame (hLead.trans hFront.symm)).2⟩

/-- The walk accepts exactly the clean files, except those whose end chunk has data. -/
theorem png_exact_iff (x : ByteString) :
    (carriesOnlyAllowedTypes .png x = .ok true ↔ IsCleanPng x) ↔
    ¬ ∃ final, EndsWith x final ∧ final.data ≠ [] := by
  rw [carriesOnlyAllowedTypes_png]
  constructor
  · rintro h ⟨final, hEnds, hData⟩
    obtain ⟨last, hLast, hEmpty⟩ := h.mp ⟨final, hEnds⟩
    exact hData (hEnds.unique hLast ▸ hEmpty)
  · intro hNone
    constructor
    · rintro ⟨final, hEnds⟩
      exact ⟨final, hEnds, by_contra fun hData => hNone ⟨final, hEnds, hData⟩⟩
    · rintro ⟨final, hEnds, -⟩
      exact ⟨final, hEnds⟩

/-! A grey pixel, with one byte of data in the end chunk. -/

def pixelHeader : PngChunk where
  chunkType := latin1 "IHDR"
  data := [0, 0, 0, 1, 0, 0, 0, 1, 8, 0, 0, 0, 0]
  crc := [0x3a, 0x7e, 0x9b, 0x55]
  type_length := by decide
  crc_length := rfl
  fits := by decide

def pixelData : PngChunk where
  chunkType := latin1 "IDAT"
  data := [0x78, 0x9c, 0x63, 0x60, 0, 0, 0, 2, 0, 1]
  crc := [0x48, 0xaf, 0xa4, 0x71]
  type_length := by decide
  crc_length := rfl
  fits := by decide

def secretEnd : PngChunk where
  chunkType := latin1 "IEND"
  data := [1]
  crc := [0xa6, 0x1d, 0x7f, 0x77]
  type_length := by decide
  crc_length := rfl
  fits := by decide

def secretPixel : ByteString :=
  [0x89, 0x50, 0x4e, 0x47, 0x0d, 0x0a, 0x1a, 0x0a] ++
    [pixelHeader, pixelData].flatMap PngChunk.bytes ++ secretEnd.bytes

theorem png_end_with_data : carriesOnlyAllowedTypes .png secretPixel = .ok true ∧
    ¬ ∀ x : ByteString, carriesOnlyAllowedTypes .png x = .ok true ↔ IsCleanPng x := by
  have hEnds : EndsWith secretPixel secretEnd :=
    ⟨by decide, _, [pixelHeader, pixelData], rfl, by decide, rfl⟩
  have hAccepted : carriesOnlyAllowedTypes .png secretPixel = .ok true :=
    carriesOnlyAllowedTypes_png.mpr ⟨secretEnd, hEnds⟩
  refine ⟨hAccepted, fun hAll => ?_⟩
  obtain ⟨last, hLast, hEmpty⟩ := (hAll secretPixel).mp hAccepted
  rw [← hEnds.unique hLast] at hEmpty
  cases hEmpty

end

end Pixaeron.Worker
