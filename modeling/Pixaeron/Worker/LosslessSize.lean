import Pixaeron.Worker.CompressorOutcomes
import Pixaeron.Worker.WebpChunks

/-! # The size of lossless results

Without an orientation the chunks that are left of a WebP file are no longer than the file. An
orientation adds a chunk of its own, and the chunks that are left out may be shorter than that. -/

namespace Pixaeron.Worker

open Bytes Conversion

def leftOut (chunks : List Chunk) : Nat :=
  ((chunks.filter fun c => !c.isClean).flatMap Chunk.bytes).length

def exifChunkLength : Nat := 34

/-- The file is made anew with an orientation, and less is left out than is put in. -/
def Outgrows (x : ByteString) (orientation : Nat) : Prop :=
  orientation ≠ 1 ∧ ∃ chunks, HasChunks x chunks ∧ ¬ KeptAsIs orientation chunks ∧
    leftOut chunks < exifChunkLength

/-- The TIFF block of a payload has an entry with an orientation. -/
def hasOrientationEntry (payload : ByteString) : Bool :=
  let tiff :=
    if payload.take exifPrefix.length = exifPrefix then payload.drop exifPrefix.length else payload
  let little := tiff.take 2 = latin1 "II"
  let ifd := if little then readUInt32LE (tiff.drop 4) else readUInt32BE (tiff.drop 4)
  let count := if little then readUInt16LE (tiff.drop ifd) else readUInt16BE (tiff.drop ifd)
  (little || tiff.take 2 = latin1 "MM") && 8 ≤ ifd && (List.range count).any fun i =>
    let entry := ifd + 2 + 12 * i
    entry + 12 ≤ tiff.length &&
      (if little then readUInt16LE (tiff.drop entry) else readUInt16BE (tiff.drop entry)) =
        exifOrientationTag

/-- The library takes the orientation of a WebP file from its `EXIF` chunk. -/
def OrientationFromExif (library : ImageLibrary) (input : ByteString) : Prop :=
  ∀ metadata, library.metadata input = .ok metadata → metadata.format = some "webp" →
    metadata.orientation.getD 1 ≠ 1 →
    ∃ chunks c, HasChunks input chunks ∧ c ∈ chunks ∧ c.chunkType = latin1 "EXIF" ∧
      hasOrientationEntry c.payload

section

variable {x y input payload : ByteString} {chunks : List Chunk} {c : Chunk} {orientation : Nat}
  {library : ImageLibrary}
  {config : CompressorConfig} {strength : ConversionStrength} {metadata : Metadata}
    {result : Compressed}

theorem length_cleanChunks (chunks : List Chunk) :
    ((cleanChunks chunks).flatMap Chunk.bytes).length + leftOut chunks =
      (chunks.flatMap Chunk.bytes).length := by
  induction chunks with
  | nil => rfl
  | cons c chunks ih =>
    rw [cleanChunks_cons, List.flatMap_append, List.length_append, List.flatMap_cons,
      List.length_append, ← ih, leftOut, leftOut]
    cases h : c.isClean with
    | false =>
      simp only [cleanChunks, List.filter_cons, h, List.filter_nil, Bool.false_eq_true, if_false,
        List.map_nil, List.flatMap_nil, List.length_nil, Bool.not_false, if_true, List.flatMap_cons,
        List.length_append]
      omega
    | true =>
      simp only [cleanChunks, List.filter_cons, h, List.filter_nil, if_true, List.map_cons,
        List.map_nil, List.flatMap_cons, List.flatMap_nil, List.append_nil, Bool.not_true,
        Bool.false_eq_true, if_false, Chunk.length_bytes, Chunk.cleared_length]
      omega

/-- With an orientation the chunks get longer by its chunk, and shorter by what is left out. -/
theorem length_strippedChunks {block : ByteString} (hBlock : block.length = 26)
    (hTurned : orientation ≠ 1) (chunks : List Chunk) :
    ((strippedChunks orientation block hBlock chunks).flatMap Chunk.bytes).length + leftOut chunks =
      (chunks.flatMap Chunk.bytes).length + exifChunkLength := by
  have hClean := length_cleanChunks chunks
  have hExif : (Chunk.exif block hBlock).bytes.length = exifChunkLength := by
    rw [Chunk.length_bytes, show (Chunk.exif block hBlock).payload = block from rfl, hBlock]
    rfl
  rw [strippedChunks, if_neg hTurned, List.flatMap_append, List.length_append, length_of_shapes,
    markLast_shapes, ← length_of_shapes, List.flatMap_singleton, hExif]
  omega

theorem webpFile_ok {body : ByteString} (hHeader : webpHeader ≤ x.length)
    (h : webpFile x body = .ok y) :
    y.length = 12 + body.length := by
  obtain ⟨hFirst, hLast⟩ := length_front hHeader
  rw [webpFile] at h
  split at h
  · cases h
    simp only [List.length_append, hFirst, hLast, length_uint32LE]
  · cases h

theorem HasChunks.length (h : HasChunks x chunks) :
    x.length = 12 + (chunks.flatMap Chunk.bytes).length := by
  obtain ⟨hHeader, hDrop⟩ := h
  rw [← hDrop, List.length_drop]
  rw [webpHeader] at hHeader ⊢
  omega

theorem orientation_lt (hChunks : HasChunks x chunks) (hNot : ¬ KeptAsIs orientation chunks)
    (hTurned : orientation ≠ 1) (h : stripWebpMetadata x orientation = .ok y) :
    orientation < 65536 := by
  by_contra hLarge
  have hBlock : exifOrientationBlock orientation = .error "value out of range" := by
    rw [exifOrientationBlock, if_neg hLarge]
  obtain ⟨walk, hWalk, hKeeps⟩ := walk_of_regular hChunks (regular_of_not_kept hNot)
  have hImage : walk.keptImage = true := hKeeps.keptImage.trans (image_of_not_kept hNot)
  rw [stripWebpMetadata, hWalk] at h
  dsimp only at h
  rw [hImage, if_neg (by decide), if_pos hTurned, hBlock] at h
  obtain ⟨-, hNone⟩ | ⟨front, c, back, hSplit, hc, hBack, hPlace⟩ := hKeeps.features
  · rw [features_of_not_kept hNot hTurned] at hNone
    cases hNone
  · rw [hPlace] at h
    cases h

/-- Where the file is made anew with an orientation, its length changes by what is put in and what
is left out. -/
theorem length_stripped (hChunks : HasChunks x chunks) (hNot : ¬ KeptAsIs orientation chunks)
    (hTurned : orientation ≠ 1) (h : stripWebpMetadata x orientation = .ok y) :
    y.length + leftOut chunks = x.length + exifChunkLength := by
  obtain ⟨block, hOk, hBlock⟩ := exifOrientationBlock_ok (orientation_lt hChunks hNot hTurned h)
  rw [strip_chunks hBlock hChunks hNot hOk] at h
  have hBody := webpFile_ok hChunks.1 h
  have hLength := hChunks.length
  have hStripped := length_strippedChunks hBlock hTurned chunks
  omega

/-- Stripping makes a file longer where the orientation outgrows what is left out, and nowhere else.
-/
theorem strip_longer_iff (h : stripWebpMetadata x orientation = .ok y) :
    x.length < y.length ↔ Outgrows x orientation := by
  constructor
  · intro hLonger
    have hOther : stripWebpMetadata x orientation ≠ .ok x := by
      rw [h]
      rintro ⟨⟩
      exact absurd hLonger (lt_irrefl _)
    obtain ⟨chunks, hChunks⟩ : ∃ chunks, HasChunks x chunks :=
      by_contra fun hNone => hOther (strip_unreadable fun chunks hChunks => hNone ⟨chunks, hChunks⟩)
    have hNot : ¬ KeptAsIs orientation chunks := fun hKept => hOther (strip_kept hChunks hKept)
    have hTurned : orientation ≠ 1 := by
      rintro rfl
      obtain ⟨block, hOk, hBlock⟩ := exifOrientationBlock_ok (show 1 < 65536 by decide)
      rw [strip_chunks hBlock hChunks hNot hOk, strippedChunks, if_pos rfl] at h
      have hBody := webpFile_ok hChunks.1 h
      have hLength := hChunks.length
      have hClean := length_clean_le chunks
      omega
    have hStripped := length_stripped hChunks hNot hTurned h
    exact ⟨hTurned, chunks, hChunks, hNot, by omega⟩
  · rintro ⟨hTurned, chunks, hChunks, hNot, hLess⟩
    have hStripped := length_stripped hChunks hNot hTurned h
    omega

theorem length_hasOrientationEntry (h : hasOrientationEntry payload) : 22 ≤ payload.length := by
  unfold hasOrientationEntry at h
  simp only [Bool.and_eq_true, List.any_eq_true, decide_eq_true_eq] at h
  obtain ⟨⟨-, hIfd⟩, i, -, hInside, -⟩ := h
  have hTiff : (if payload.take exifPrefix.length = exifPrefix then payload.drop exifPrefix.length
    else payload).length ≤ payload.length := by
    split
    · rw [List.length_drop]
      exact Nat.sub_le _ _
    · exact le_rfl
  omega

/-- Where the orientation of an outgrown file comes from an `EXIF` chunk, only that chunk is left
out, and its payload has 22 to 24 bytes. -/
theorem leftOut_exif (hMem : c ∈ chunks) (hType : c.chunkType = latin1 "EXIF")
    (hEntry : hasOrientationEntry c.payload) (hLess : leftOut chunks < exifChunkLength) :
    (chunks.filter fun c => !c.isClean) = [c] ∧ 22 ≤ c.payload.length ∧ c.payload.length ≤ 24 := by
  have hPayload := length_hasOrientationEntry hEntry
  have hExif : c ∈ chunks.filter fun c => !c.isClean := by
    refine List.mem_filter.mpr ⟨hMem, ?_⟩
    rw [Chunk.isClean, hType]
    rfl
  have hShort (others : List Chunk) : 8 * others.length ≤ (others.flatMap Chunk.bytes).length := by
    induction others with
    | nil => exact Nat.zero_le _
    | cons other rest ih =>
      rw [List.length_cons, List.flatMap_cons, List.length_append, Chunk.length_bytes]
      omega
  obtain ⟨front, back, hSplit⟩ := List.append_of_mem hExif
  have hFront := hShort front
  have hBack := hShort back
  rw [leftOut, hSplit, List.flatMap_append, List.flatMap_cons, List.length_append,
    List.length_append, Chunk.length_bytes, exifChunkLength] at hLess
  obtain rfl : front = [] := List.eq_nil_of_length_eq_zero (by omega)
  obtain rfl : back = [] := List.eq_nil_of_length_eq_zero (by omega)
  exact ⟨hSplit, hPayload, by omega⟩

theorem lossless_data {format : ConversionImageFormat} {e : Encoded}
    (hFormat : format = .webp ∨ format = .avif)
    (h : encodeLossless library format metadata input = .ok e) :
    (format = .webp ∧ stripWebpMetadata input (metadata.orientation.getD 1) = .ok e.data) ∨
      (format = .avif ∧ e.data = input) := by
  rcases hFormat with rfl | rfl
  · obtain ⟨data, hData, h⟩ := ok_of_bind h
    cases h
    exact .inl ⟨rfl, hData⟩
  · exact .inr ⟨rfl, lossless_avif h⟩

/-- A lossless WebP or AVIF result is longer than the input exactly where a WebP file has to take an
orientation that outgrows what it leaves out. -/
theorem lossless_no_larger_iff (hMetadata : library.metadata input = .ok metadata)
    (hFormat : result.format = .webp ∨ result.format = .avif)
    (h : compress library config input .lossless strength = .ok result) :
    result.bytes.length ≤ input.length ↔
      ¬ (result.format = .webp ∧ Outgrows input (metadata.orientation.getD 1)) := by
  obtain ⟨other, hOther, hOutcome⟩ := outcome_of_compress h
  obtain rfl : metadata = other := by
    rw [hMetadata] at hOther
    exact Except.ok.inj hOther
  -- the data is longer than the input exactly where the orientation outgrows what is left out
  have hData {e : Encoded} (hEncoded : encodeLossless library result.format metadata input =
    .ok e) :
      e.data.length ≤ input.length ↔
        ¬ (result.format = .webp ∧ Outgrows input (metadata.orientation.getD 1)) := by
    rw [← not_lt, not_iff_not]
    rcases lossless_data hFormat hEncoded with ⟨hWebp, hStrip⟩ | ⟨hAvif, hSame⟩
    · rw [strip_longer_iff hStrip]
      simp [hWebp]
    · simp [hAvif, hSame]
  cases hOutcome with
  | saved e hEncoded hShorter hKind hBytes =>
    rw [hBytes]
    exact hData hEncoded
  | larger e hEncoded hLonger hNotSame hCarries hKind hBytes =>
    rw [hBytes]
    exact hData hEncoded
  | unchanged e hEncoded hWhy hKind hBytes =>
    rw [hBytes, ← hData hEncoded]
    rcases hWhy with hSame | hCarries
    · rw [hSame]
    · refine iff_of_true le_rfl ((hData hEncoded).mpr ?_)
      rintro ⟨hWebp, hTurned, -⟩
      rw [carriesMetadata, if_pos (by simp [hTurned])] at hCarries
      cases hCarries

end

section

/-! A picture that is to be turned, with the shortest TIFF block that says so. -/

def turnedChunk : Chunk where
  chunkType := latin1 "EXIF"
  payload :=
    latin1 "II" ++ uint16LE 42 ++ uint32LE 8 ++ uint16LE 1 ++ uint16LE exifOrientationTag ++
      uint16LE 3 ++ uint32LE 1 ++ uint16LE 6 ++ [0, 0]
  padding := []
  type_length := rfl
  padding_length := by decide
  fits := by decide

def turnedPicture : ByteString :=
  latin1 "RIFF" ++ uint32LE 62 ++ latin1 "WEBP" ++
    [featuresChunk, pictureChunk, turnedChunk].flatMap Chunk.bytes

/-- A library that reads every input as a small WebP picture turned by a quarter. -/
def turningLibrary : ImageLibrary :=
  { readingLibrary with
    metadata := fun _ =>
      .ok ⟨some "webp", none, none, some 8, some 8, false, some 6, true, false, false⟩ }

theorem turnedPicture_chunks : HasChunks turnedPicture [featuresChunk, pictureChunk, turnedChunk] :=
  ⟨by decide, by decide⟩

theorem turnedPicture_orientation : OrientationFromExif turningLibrary turnedPicture := by
  intro metadata _ _ _
  exact ⟨_, turnedChunk, turnedPicture_chunks, by simp, rfl, by decide⟩

/-- The chunk of 30 bytes is replaced by one of 34. -/
theorem turnedPicture_grows :
    ¬ ∀ (library : ImageLibrary) (config : CompressorConfig) (input : ByteString)
        (strength : ConversionStrength) (result : Compressed),
      OrientationFromExif library input → result.format = .webp ∨ result.format = .avif →
      compress library config input .lossless strength = .ok result →
      result.bytes.length ≤ input.length := by
  intro hAll
  obtain ⟨result, hRun, hFormat, hLonger⟩ :
      ∃ result, compress turningLibrary ⟨1000, 1000⟩ turnedPicture .lossless .low = .ok result ∧
        result.format = .webp ∧ turnedPicture.length < result.bytes.length :=
    ⟨_, rfl, rfl, by decide⟩
  exact absurd (hAll _ _ _ _ _ turnedPicture_orientation (.inl hFormat) hRun)
    (Nat.not_le.mpr hLonger)

/-- The result is as long as the input and four bytes more. -/
theorem turnedPicture_outgrown :
    ∃ result, compress turningLibrary ⟨1000, 1000⟩ turnedPicture .lossless .low = .ok result ∧
    ¬ result.bytes.length ≤ turnedPicture.length ∧
    ¬ ¬ (result.format = .webp ∧ Outgrows turnedPicture 6) := by
  obtain ⟨result, hRun, hFormat, hLonger⟩ :
      ∃ result, compress turningLibrary ⟨1000, 1000⟩ turnedPicture .lossless .low = .ok result ∧
        result.format = .webp ∧ turnedPicture.length < result.bytes.length :=
    ⟨_, rfl, rfl, by decide⟩
  have hIff := lossless_no_larger_iff rfl (.inl hFormat) hRun
  exact ⟨result, hRun, Nat.not_le.mpr hLonger, hIff.not.mp (Nat.not_le.mpr hLonger)⟩

end

end Pixaeron.Worker
