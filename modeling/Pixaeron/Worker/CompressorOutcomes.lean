import Pixaeron.Worker.Compressor

/-! # What the compressor hands back

Where the bytes of a result come from, and what its kind says about them.
-/

namespace Pixaeron.Worker

open Bytes Conversion

/-- An encoding of the input by the library, or of such an encoding. -/
inductive IsEncoding (library : ImageLibrary) (input : ByteString) : ByteString → Prop
  | encoded {encoding : Encoding} {e : Encoded}
      (h : library.encode encoding input = .ok e) : IsEncoding library input e.data
  | repacked {palette : Palette} {bytes : ByteString} {e : Encoded}
      (h : IsEncoding library input bytes)
      (hEncode : library.encode (.repacked palette) bytes = .ok e) : IsEncoding library input e.data

/-- The input with its container rewritten. -/
def IsRewrite (format : ConversionImageFormat) (metadata : Metadata)
    (input bytes : ByteString) : Prop :=
  (format = .jpeg ∧ rewriteJpegMetadata input (metadata.orientation.getD 1) = .ok bytes) ∨
  (format = .webp ∧ stripWebpMetadata input (metadata.orientation.getD 1) = .ok bytes ∧
    bytes ≠ input)

/-- What an encoder that removes metadata may give. -/
def IsCleaned (library : ImageLibrary) (format : ConversionImageFormat) (metadata : Metadata)
    (input bytes : ByteString) : Prop :=
  IsEncoding library input bytes ∨ IsRewrite format metadata input bytes ∨
    (bytes = input ∧ carriesMetadata format metadata input = .ok false)

section Outcomes

variable {library : ImageLibrary} {config : CompressorConfig} {input : ByteString}
  {metadata : Metadata}
  {format : ConversionImageFormat} {mode : ConversionMode} {strength : ConversionStrength}
    {result : Compressed}
  {encoding : Encoding} {palette : Palette} {e image : Encoded}

theorem ok_of_bind {α β : Type} {x : Except String α} {f : α → Except String β} {b : β}
    (h : x >>= f = .ok b) :
    ∃ a, x = .ok a ∧ f a = .ok b := by
  cases x with
  | error e => cases h
  | ok a => exact ⟨a, rfl, h⟩

theorem isEncoding_repacked (hImage : IsEncoding library input image.data)
    (h : repackPalette library palette image = .ok e) :
    IsEncoding library input e.data := by
  obtain ⟨indexed, hIndexed, h⟩ := ok_of_bind h
  split at h
  · cases h
    exact hImage
  · obtain ⟨expected, -, h⟩ := ok_of_bind h
    obtain ⟨actual, -, h⟩ := ok_of_bind h
    cases h
    split
    · exact hImage.repacked hIndexed
    · exact hImage

theorem isEncoding_png (h : encodeLossless library .png metadata input = .ok e) :
    IsEncoding library input e.data := by
  obtain ⟨deflated, hDeflated, h⟩ := ok_of_bind h
  obtain ⟨fits, -, h⟩ := ok_of_bind h
  split at h
  · exact isEncoding_repacked (.encoded hDeflated) h
  · cases h
    exact .encoded hDeflated

theorem isRewrite_jpeg (h : encodeLossless library .jpeg metadata input = .ok e) :
    IsRewrite .jpeg metadata input e.data := by
  obtain ⟨data, hData, h⟩ := ok_of_bind h
  cases h
  exact .inl ⟨rfl, hData⟩

theorem lossless_webp (h : encodeLossless library .webp metadata input = .ok e)
    (hOther : e.data ≠ input) :
    IsRewrite .webp metadata input e.data := by
  obtain ⟨data, hData, h⟩ := ok_of_bind h
  cases h
  exact .inr ⟨rfl, hData, hOther⟩

theorem lossless_avif (h : encodeLossless library .avif metadata input = .ok e) :
    e.data = input := by
  cases h
  rfl

/-- Where a lossless candidate is not the input, it is clean. -/
def CleansOthers (library : ImageLibrary) (format : ConversionImageFormat) (metadata : Metadata)
    (input : ByteString) : Prop :=
  ∀ e, encodeLossless library format metadata input = .ok e → e.data ≠ input →
    IsRewrite format metadata input e.data

theorem isCleaned_container (hOthers : CleansOthers library format metadata input)
    (h : encodeContainer library encoding format metadata input = .ok e) :
    IsCleaned library format metadata input e.data := by
  obtain ⟨lossy, hLossy, h⟩ := ok_of_bind h
  obtain ⟨lossless, hLossless, h⟩ := ok_of_bind h
  split at h
  · next hEnough =>
    cases h
    split
    · next hSmaller =>
      by_cases hSame : lossless.data = input
      · -- A tenth less than the input, and not less than it: there is nothing to encode.
        have hEmpty : lossy.data = input := by
          rw [buysEnough, decide_eq_true_eq] at hEnough
          rw [hSame] at hSmaller
          have hInput : input.length = 0 := by omega
          have hLossy : lossy.data.length = 0 := by omega
          rw [List.eq_nil_of_length_eq_zero hInput, List.eq_nil_of_length_eq_zero hLossy]
        rw [hSame]
        have hEncoding : IsEncoding library input lossy.data := .encoded hLossy
        rw [hEmpty] at hEncoding
        exact .inl hEncoding
      · exact .inr (.inl (hOthers lossless hLossless hSame))
    · exact .inl (.encoded hLossy)
  · split at h
    · next hOther =>
      cases h
      exact .inr (.inl (hOthers _ hLossless hOther))
    · next hSame =>
      obtain ⟨carries, hCarries, h⟩ := ok_of_bind h
      cases carries with
      | true =>
        cases h
        exact .inl (.encoded hLossy)
      | false =>
        cases h
        exact .inr (.inr ⟨not_not.mp hSame, hCarries⟩)

theorem isCleaned_lossy (h : encodeLossy library format metadata input strength = .ok e) :
    IsCleaned library format metadata input e.data := by
  cases format with
  | jpeg =>
    obtain ⟨lossy, hLossy, h⟩ := ok_of_bind h
    split at h
    · cases h
      exact .inl (.encoded hLossy)
    · exact .inr (.inl (isRewrite_jpeg h))
  | png =>
    obtain ⟨lossless, hLossless, h⟩ := ok_of_bind h
    have hClean := isEncoding_png hLossless
    split at h
    · cases h
      exact .inl hClean
    · obtain ⟨palette, hPalette, h⟩ := ok_of_bind h
      obtain ⟨quantized, hQuantized, h⟩ := ok_of_bind h
      cases h
      split
      · exact .inl (isEncoding_repacked (.encoded hPalette) hQuantized)
      · exact .inl hClean
  | webp => exact isCleaned_container (fun e he hOther => lossless_webp he hOther) h
  | avif => exact isCleaned_container (fun e he hOther => absurd (lossless_avif he) hOther) h

theorem isCleaned_encoders (hCleans : mode = .lossy ∨ format = .jpeg ∨ format = .png)
    (h : encoders library format metadata input strength mode = .ok e) :
    IsCleaned library format metadata input e.data := by
  cases mode with
  | lossy => exact isCleaned_lossy h
  | lossless =>
    obtain hMode | rfl | rfl := hCleans
    · cases hMode
    · have hRewrite : encodeLossless library .jpeg metadata input = .ok e := h
      exact .inr (.inl (isRewrite_jpeg hRewrite))
    · have hPng : encodeLossless library .png metadata input = .ok e := h
      exact .inl (isEncoding_png hPng)

/-- A result has the format and the kind that go with its bytes. -/
inductive IsOutcome (library : ImageLibrary) (metadata : Metadata) (input : ByteString)
    (mode : ConversionMode) (strength : ConversionStrength) (result : Compressed) : Prop
  | saved (e : Encoded) (h : encoders library result.format metadata input strength mode = .ok e)
      (hShorter : e.data.length < input.length) (hKind : result.kind = .saved)
        (hBytes : result.bytes = e.data)
  | unchanged (e : Encoded) (h : encoders library result.format metadata input strength mode =
      .ok e)
      (hWhy : e.data = input ∨ carriesMetadata result.format metadata input = .ok false)
      (hKind : result.kind = .noSavings) (hBytes : result.bytes = input)
  | larger (e : Encoded) (h : encoders library result.format metadata input strength mode = .ok e)
      (hLonger : ¬ e.data.length < input.length) (hOther : e.data ≠ input)
      (hCarries : carriesMetadata result.format metadata input = .ok true)
      (hKind : result.kind = .sanitizedLarger) (hBytes : result.bytes = e.data)

theorem outcome_of_compressAs
    (h : compressAs library format metadata input mode strength = .ok result) :
    IsOutcome library metadata input mode strength result := by
  obtain ⟨e, hEncoded, h⟩ := ok_of_bind h
  split at h
  · next hShorter =>
    cases h
    exact .saved e hEncoded hShorter rfl rfl
  · next hLonger =>
    split at h
    · next hSame =>
      cases h
      exact .unchanged e hEncoded (.inl hSame) rfl rfl
    · next hOther =>
      obtain ⟨carries, hCarries, h⟩ := ok_of_bind h
      cases carries with
      | true =>
        cases h
        exact .larger e hEncoded hLonger hOther hCarries rfl rfl
      | false =>
        cases h
        exact .unchanged e hEncoded (.inr hCarries) rfl rfl

theorem outcome_of_compress (h : compress library config input mode strength = .ok result) :
    ∃ metadata, library.metadata input = .ok metadata ∧
      IsOutcome library metadata input mode strength result := by
  unfold compress at h
  split at h
  · cases h
  · split at h
    · cases h
    · next metadata hMetadata =>
      dsimp only at h
      split at h
      · cases h
      · next format hFormat =>
        split_ifs at h
        cases hResult : compressAs library format metadata input mode strength with
        | error e => rw [hResult] at h; cases h
        | ok other =>
          rw [hResult] at h
          cases h
          exact ⟨metadata, hMetadata, outcome_of_compressAs hResult⟩

/-- A result that is the input is clean, its own rewrite, or what the library has made of it. -/
theorem input_of_isCleaned (h : IsCleaned library format metadata input input) :
    carriesMetadata format metadata input = .ok false ∨
      (format = .jpeg ∧ rewriteJpegMetadata input (metadata.orientation.getD 1) = .ok input) ∨
      IsEncoding library input input := by
  obtain hEncoding | (hJpeg | ⟨-, -, hOther⟩) | ⟨-, hCarries⟩ := h
  · exact .inr (.inr hEncoding)
  · exact .inr (.inl hJpeg)
  · exact absurd rfl hOther
  · exact .inl hCarries

/-- The compressor gives what the library has encoded, the input with a rewritten container, or the
input where that is clean; and its kind tells which of the two is shorter. -/
theorem compress_truthful (library : ImageLibrary) (config : CompressorConfig) (input : ByteString)
    (mode : ConversionMode) (strength : ConversionStrength) (result : Compressed)
    (h : compress library config input mode strength = .ok result) :
    ∃ metadata, library.metadata input = .ok metadata ∧
      ((mode = .lossy ∨ result.format = .jpeg ∨ result.format = .png) →
        (IsEncoding library input result.bytes ∨
          IsRewrite result.format metadata input result.bytes ∨ result.bytes = input) ∧
        (result.bytes = input → carriesMetadata result.format metadata input = .ok false ∨
          (result.format = .jpeg ∧ rewriteJpegMetadata input (metadata.orientation.getD 1) =
            .ok input) ∨
          IsEncoding library input input)) ∧
      (result.kind = .saved → result.bytes.length < input.length) ∧
      (result.kind = .noSavings → result.bytes = input) ∧
      (result.kind = .sanitizedLarger → ¬ result.bytes.length < input.length ∧
        result.bytes ≠ input ∧
        carriesMetadata result.format metadata input = .ok true) := by
  obtain ⟨metadata, hMetadata, hOutcome⟩ := outcome_of_compress h
  refine ⟨metadata, hMetadata, fun hCleans => ?_, ?_⟩
  · cases hOutcome with
    | saved e hEncoded hShorter hKind hBytes =>
      have hClean := isCleaned_encoders hCleans hEncoded
      rw [hBytes]
      refine ⟨hClean.imp_right (Or.imp_right And.left), fun hSame => ?_⟩
      rw [hSame] at hClean
      exact input_of_isCleaned hClean
    | unchanged e hEncoded hWhy hKind hBytes =>
      have hClean := isCleaned_encoders hCleans hEncoded
      refine ⟨.inr (.inr hBytes), fun _ => ?_⟩
      obtain hSame | hCarries := hWhy
      · rw [hSame] at hClean
        exact input_of_isCleaned hClean
      · exact .inl hCarries
    | larger e hEncoded hLonger hOther hCarries hKind hBytes =>
      have hClean := isCleaned_encoders hCleans hEncoded
      rw [hBytes]
      exact ⟨hClean.imp_right (Or.imp_right And.left), fun hSame => absurd hSame hOther⟩
  · cases hOutcome with
    | saved e hEncoded hShorter hKind hBytes =>
      rw [hKind, hBytes]
      exact ⟨fun _ => hShorter, nofun, nofun⟩
    | unchanged e hEncoded hWhy hKind hBytes =>
      rw [hKind, hBytes]
      exact ⟨nofun, fun _ => rfl, nofun⟩
    | larger e hEncoded hLonger hOther hCarries hKind hBytes =>
      rw [hKind, hBytes]
      exact ⟨nofun, nofun, fun _ => ⟨hLonger, hOther, hCarries⟩⟩

/-- A library that reads every input as a small JPEG picture and encodes nothing. -/
def readingLibrary : ImageLibrary where
  metadata _ := .ok ⟨some "jpeg", none, none, some 8, some 8, false, none, false, false, false⟩
  encode _ _ := .error "unsupported image format"
  pixels _ _ := .error "unsupported image format"
  sha256 pixels := pixels

theorem compress_truthful_comment : ∃ result,
    compress readingLibrary ⟨100, 100⟩ [0xff, 0xd8, 0xff, 0xfe, 0, 3, 7, 0xff, 0xda, 0xff, 0xd9]
      .lossless .low = .ok result ∧
      result.kind = .saved ∧ result.bytes = [0xff, 0xd8, 0xff, 0xda, 0xff, 0xd9] ∧
      result.bytes.length < 11 := by
  have hRun : compress readingLibrary ⟨100, 100⟩
    [0xff, 0xd8, 0xff, 0xfe, 0, 3, 7, 0xff, 0xda, 0xff, 0xd9] .lossless .low =
    .ok ⟨.saved, [0xff, 0xd8, 0xff, 0xda, 0xff, 0xd9], .jpeg, "image/jpeg", 1, 8, 8⟩ := rfl
  obtain ⟨-, -, -, hSaved, -, -⟩ := compress_truthful _ _ _ _ _ _ hRun
  exact ⟨_, hRun, rfl, rfl, hSaved rfl⟩

end Outcomes

end Pixaeron.Worker
