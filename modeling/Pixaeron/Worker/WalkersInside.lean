import Pixaeron.Worker.Walkers
import Pixaeron.Worker.WebpChunks

/-! # Walkers end inside the buffer

The walkers of the source give what the walks over the rest of a file give, and no read or write of
theirs is out of range.
-/

namespace Pixaeron.Worker.Walkers

open Bytes Conversion

variable {rounds orientation : Nat} {input : ByteString}

theorem webpFile_eq (h : webpHeader ≤ input.length) (body : ByteString) :
    webpFile input body = (Worker.webpFile input body).mapError fun _ => .outOfRange := by
  have hHeader : (input.take webpHeader).length = 12 := List.length_take_of_le h
  rw [Worker.webpFile, webpFile]
  split
  · next hFits =>
    rw [writeUInt32LE_ok hFits (by omega)]
    have hFirst : (input.take webpHeader).take 4 = input.take 4 := by
      rw [List.take_take]
      rfl
    have hLast : (input.take webpHeader).drop 8 = subarray input 8 webpHeader := by
      rw [List.drop_take]
      rfl
    change Except.ok (overwrite (input.take webpHeader) (uint32LE (body.length + 4)) 4 ++ body) = _
    rw [overwrite, hFirst, length_uint32LE, hLast]
    rfl
  · next hFits =>
    have hWrite : writeUInt32LE (input.take webpHeader) (body.length + 4) 4 = .error .outOfRange :=
      if_neg fun hBoth => hFits hBoth.1
    rw [hWrite]
    rfl

theorem segments_found (kept : List ByteString) (hRounds : input.length < rounds) :
    loop .unfinished (jpegTurn input) rounds ⟨kept, 2⟩ =
      ((walkSegments input.length (input.drop 2)).map
        fun segments => (kept ++ segments).flatten).mapError .malformed := by
  have hAdvances := Advances.of_proper (fun s => @jpegTurn_proper input s)
  have hLoop := @jpeg_loop rounds input ⟨kept, 2⟩ (by dsimp only; omega)
  cases hEmpty : input.length with
  | zero =>
    have hNone : input.drop 2 = [] := List.drop_eq_nil_of_le (by omega)
    rw [hLoop]
    dsimp only
    rw [hNone]
    cases rounds <;> rfl
  | succ n =>
    rw [hAdvances.stable (m := n + 1) (by dsimp only; omega) (by dsimp only; omega)]
    exact jpeg_loop (by dsimp only; omega)

theorem rewriteJpegMetadata_loop (rounds : Nat) (input : ByteString) (h : orientation < 65536) :
    ∃ inserted, orientationSegment orientation = .ok inserted ∧
      rewriteJpegMetadata rounds input orientation =
        loop .unfinished (jpegTurn input) rounds ⟨[input.take 2] ++ inserted, 2⟩ := by
  obtain ⟨block, hBlock, hSame, hLength⟩ := exifOrientationBlock_ok h
  rw [rewriteJpegMetadata, orientationSegment]
  by_cases hUpright : orientation = 1
  · exact ⟨[], if_pos hUpright, by rw [if_neg (not_not_intro hUpright)]; rfl⟩
  · have hBody : (exifPrefix ++ block).length = 32 := by
      rw [List.length_append, hLength]
      decide +kernel
    have hHeader : writeUInt16BE [0xff, jpegApp1, 0, 0] ((exifPrefix ++ block).length + 2) 2 =
        .ok ([0xff, jpegApp1] ++ uint16BE ((exifPrefix ++ block).length + 2)) := by
      rw [writeUInt16BE_ok (by omega) (by decide)]
      rfl
    rw [if_neg hUpright, if_pos hUpright, hBlock, hSame]
    refine ⟨_, rfl, ?_⟩
    dsimp only [bind, Except.bind]
    rw [hHeader]

theorem rewriteJpegMetadata_eq (h : orientation < 65536) (hRounds : input.length < rounds) :
    rewriteJpegMetadata rounds input orientation =
      (Worker.rewriteJpegMetadata input orientation).mapError .malformed := by
  obtain ⟨inserted, hInserted, hLoop⟩ := rewriteJpegMetadata_loop rounds input h
  rw [hLoop, segments_found _ hRounds, Worker.rewriteJpegMetadata, hInserted]
  change _ = Except.mapError _ (Except.bind (walkSegments input.length (input.drop 2)) _)
  cases walkSegments input.length (input.drop 2) <;> rfl

theorem stripWebpMetadata_eq (h : orientation < 65536) (hRounds : input.length < rounds) :
    stripWebpMetadata rounds input orientation =
      (Worker.stripWebpMetadata input orientation).mapError fun _ => .outOfRange := by
  obtain ⟨block, hBlock, hSame, hLength⟩ := exifOrientationBlock_ok h
  by_cases hHeader : webpHeader ≤ input.length
  · have hTwelve : 12 ≤ input.length := hHeader
    have hAdvances := Advances.of_proper (fun s => @stripTurn_proper input s)
    have hLoop :=
      @strip_loop input.length input ⟨⟨[], false, none⟩, webpHeader⟩ hHeader
        (by dsimp only [webpHeader]; omega)
    rw [stripWebpMetadata, hAdvances.stable (m := input.length) (by dsimp only [webpHeader]; omega)
      (by dsimp only [webpHeader]; omega), Worker.stripWebpMetadata]
    rcases hLoop with ⟨hWalk, hNone⟩ | ⟨t, hInside, hWalk, hSome⟩
    · dsimp only at hWalk
      rw [hNone, hWalk]
      rfl
    · dsimp only at hWalk
      rw [hSome, hWalk]
      dsimp only [bind, Except.bind]
      have hRest : (decide (input.drop t.offset ≠ []) || !t.walk.keptImage) = true ↔
        t.offset ≠ input.length ∨ (!t.walk.keptImage) = true := by
        rw [Bool.or_eq_true, decide_eq_true_eq, ne_eq, List.drop_eq_nil_iff]
        constructor <;> rintro (h | h) <;> first | exact .inl (by omega) | exact .inr h
      split
      · next hKept => rw [if_pos (hRest.2 hKept)]; rfl
      · next hKept =>
        rw [if_neg (mt hRest.1 hKept)]
        split
        · next hTurned =>
          cases hPlace : t.walk.features with
          | none => rfl
          | some place =>
            have hExif : writeUInt32LE (overwrite (List.replicate 8 0) (latin1 "EXIF") 0)
              block.length 4 =
                .ok (latin1 "EXIF" ++ uint32LE block.length) := by
              have hName : latin1 "EXIF" = [69, 88, 73, 70] := by decide +kernel
              rw [hLength, hName, writeUInt32LE_ok (by decide) (by decide)]
              rfl
            dsimp only
            rw [hBlock, hSame]
            dsimp only
            rw [hExif]
            exact webpFile_eq hHeader _
        · exact webpFile_eq hHeader _
  · have hShort : input.length < 12 := Nat.lt_of_not_le hHeader
    have hNone : input.drop webpHeader = [] := List.drop_eq_nil_of_le (Nat.le_of_lt hShort)
    obtain ⟨n, rfl⟩ : ∃ n, rounds = n + 1 := ⟨rounds - 1, by omega⟩
    have hTurn : stripTurn input ⟨⟨[], false, none⟩, webpHeader⟩ =
      .ok (.done (some ⟨⟨[], false, none⟩, webpHeader⟩)) :=
      if_neg (by dsimp only [webpHeader]; omega)
    rw [stripWebpMetadata, loop_done hTurn, Worker.stripWebpMetadata, hNone, walkWebp_nil]
    exact if_pos (.inl (by dsimp only [webpHeader]; omega))

theorem carriesOnlyAllowedTypes_eq {format : ConversionImageFormat}
    (hRounds : input.length < rounds) (hHeader : format = .webp → 8 ≤ input.length) :
    carriesOnlyAllowedTypes rounds format input =
      (Worker.carriesOnlyAllowedTypes format input).mapError .malformed := by
  cases format with
  | jpeg =>
    change Except.bind (rewriteJpegMetadata rounds input 1) _ =
      Except.mapError _ (Except.bind (Worker.rewriteJpegMetadata input 1) _)
    rw [rewriteJpegMetadata_eq (by decide) hRounds]
    cases Worker.rewriteJpegMetadata input 1 <;> rfl
  | png => 
    change loop _ _ _ _ = Except.ok (onlyCleanPng input (input.length + 1) 8)
    have hAdvances := Advances.of_proper (@pngTurn_proper input)
    rw [hAdvances.stable (m := input.length + 1) (by dsimp only [id]; omega)
      (by dsimp only [id]; omega), png_loop (by omega)]
  | webp =>
    have hRead : 4 + 4 ≤ input.length := hHeader rfl
    have hAdvances := Advances.of_proper (@webpTurn_proper input)
    rw [carriesOnlyAllowedTypes, Worker.carriesOnlyAllowedTypes, carriesOnlyAllowedWebp,
      readUInt32LE_ok hRead, if_neg (Nat.not_lt.2 hRead)]
    change (if _ then _ else _) = _
    split
    · rfl
    · by_cases hInside : webpHeader ≤ input.length
      · have hTwelve : 12 ≤ input.length := hInside
        rw [hAdvances.stable (m := input.length) (by dsimp only [id, webpHeader]; omega)
          (by dsimp only [id, webpHeader]; omega),
          webp_loop hInside (by dsimp only [webpHeader]; omega), decide_eq_true hInside]
        rfl
      · have hShort : input.length < 12 := Nat.lt_of_not_le hInside
        obtain ⟨n, rfl⟩ : ∃ n, rounds = n + 1 := ⟨rounds - 1, by omega⟩
        have hTurn : webpTurn input webpHeader = .ok (.done (webpHeader = input.length)) :=
          if_neg (by dsimp only [webpHeader]; omega)
        rw [loop_done hTurn, decide_eq_false hInside,
          decide_eq_false (by dsimp only [webpHeader]; omega)]
        rfl
  | avif =>
    change loop _ _ _ _ = Except.ok (onlyCleanAvif input (input.length + 1) 0 [])
    have hAdvances := Advances.of_proper (@boxTurn_proper rounds input hRounds)
    rw [hAdvances.stable (m := input.length + 1) (by dsimp only; omega) (by dsimp only; omega),
      box_loop hRounds (by dsimp only; omega)]

section Outcomes

theorem rewriteJpegMetadata_malformed (h : orientation < 65536) (hRounds : input.length < rounds)
    {e : Fault} (hError : rewriteJpegMetadata rounds input orientation = .error e) :
    IsMalformed e := by
  obtain ⟨inserted, -, hLoop⟩ := rewriteJpegMetadata_loop rounds input h
  rw [hLoop] at hError
  exact loop_error_of_proper jpegTurn_proper (by dsimp only; omega) hError

/-- Stripping is never out of range: what is written is at most a little longer than the input. -/
theorem stripWebpMetadata_ok (hShort : input.length < 2147483648) (h : orientation < 65536) :
    ∃ y, Worker.stripWebpMetadata input orientation = .ok y := by
  obtain ⟨block, -, hSame, hLength⟩ := exifOrientationBlock_ok h
  by_cases hReadable : ∃ chunks, HasChunks input chunks
  · obtain ⟨chunks, hChunks⟩ := hReadable
    by_cases hKept : KeptAsIs orientation chunks
    · exact ⟨_, strip_kept hChunks hKept⟩
    · exact ⟨_, strip_rebuilds hLength hShort hChunks hKept hSame⟩
  · exact ⟨_, strip_unreadable fun chunks hChunks => hReadable ⟨chunks, hChunks⟩⟩

/-- What comes of a walk over a file: a result, or one of the rewriter's own errors if the file is a
JPEG. -/
def EndsWell {α : Type} (isJpeg : Prop) (result : Except Fault α) : Prop :=
  (∃ y, result = .ok y) ∨ isJpeg ∧ ∃ e, result = .error e ∧ IsMalformed e

theorem carriesOnlyAllowedTypes_ends {format : ConversionImageFormat}
    (hRounds : input.length < rounds) (hHeader : format = .webp → 8 ≤ input.length) :
    EndsWell (format = .jpeg) (carriesOnlyAllowedTypes rounds format input) := by
  cases format with
  | jpeg =>
    rw [carriesOnlyAllowedTypes]
    cases hResult : rewriteJpegMetadata rounds input 1 with
    | ok y => exact .inl ⟨_, rfl⟩
    | error e => exact .inr ⟨rfl, e, rfl, rewriteJpegMetadata_malformed (by decide) hRounds hResult⟩
  | png => exact .inl (exists_result pngTurn_proper (by dsimp only [id]; omega))
  | webp =>
    have hRead : 4 + 4 ≤ input.length := hHeader rfl
    rw [carriesOnlyAllowedTypes, readUInt32LE_ok hRead]
    change EndsWell _ (if _ then _ else _)
    split
    · exact .inl ⟨_, rfl⟩
    · exact .inl (exists_result webpTurn_proper (by dsimp only [id]; omega))
  | avif => exact .inl (exists_result (boxTurn_proper hRounds) (by dsimp only; omega))

end Outcomes

/-- Given more rounds than the input has bytes, no walker is cut off, no read or write is out of
range, and every turn that another follows moves the cursor forward, in each of the loops. The
walkers give what the walks over the rest of the file give. -/
theorem walkers_inside (input : ByteString) (rounds : Nat) (hShort : input.length < 2147483648)
    (hRounds : input.length < rounds) :
    (∀ orientation < 65536, EndsWell True (rewriteJpegMetadata rounds input orientation) ∧
      EndsWell False (stripWebpMetadata rounds input orientation) ∧
      rewriteJpegMetadata rounds input orientation =
        (Worker.rewriteJpegMetadata input orientation).mapError .malformed ∧
      stripWebpMetadata rounds input orientation =
        (Worker.stripWebpMetadata input orientation).mapError fun _ => .outOfRange) ∧
    (∀ format, (format = .webp → 8 ≤ input.length) →
      EndsWell (format = .jpeg) (carriesOnlyAllowedTypes rounds format input) ∧
      carriesOnlyAllowedTypes rounds format input =
        (Worker.carriesOnlyAllowedTypes format input).mapError .malformed) ∧
    (∀ s, Proper IsMalformed JpegState.offset input.length s (jpegTurn input s)) ∧
    (∀ s, Proper (fun _ => False) WebpState.offset input.length s (stripTurn input s)) ∧
    (∀ offset, Proper (fun _ => False) id input.length offset (pngTurn input offset)) ∧
    (∀ offset, Proper (fun _ => False) id input.length offset (webpTurn input offset)) ∧
    (∀ s, Proper (fun _ => False) AvifState.offset input.length s (boxTurn rounds input s)) ∧
    (∀ boxType, ∀ boxEnd ≤ input.length, ∀ s,
      Proper (fun _ => False) AvifState.offset input.length s
      (childTurn rounds input boxType boxEnd s)) ∧
    ∀ iinfEnd ≤ input.length, ∀ s, Proper (fun _ => False) AvifState.offset input.length s
      (entryTurn input iinfEnd s) := by
  refine ⟨?_, ?_, jpegTurn_proper, stripTurn_proper, pngTurn_proper, webpTurn_proper,
    boxTurn_proper hRounds, ?_, ?_⟩
  · intro orientation h
    have hStrip := stripWebpMetadata_eq h hRounds
    refine ⟨?_, ?_, rewriteJpegMetadata_eq h hRounds, hStrip⟩
    · cases hResult : rewriteJpegMetadata rounds input orientation with
      | ok y => exact .inl ⟨y, rfl⟩
      | error e => exact .inr ⟨trivial, e, rfl, rewriteJpegMetadata_malformed h hRounds hResult⟩
    · obtain ⟨y, hOk⟩ := stripWebpMetadata_ok hShort h
      rw [hOk] at hStrip
      exact .inl ⟨y, hStrip⟩
  · intro format hHeader
    exact ⟨carriesOnlyAllowedTypes_ends hRounds hHeader, carriesOnlyAllowedTypes_eq hRounds hHeader⟩
  · intro boxType boxEnd hEnd s
    exact childTurn_proper hRounds boxType hEnd s
  · intro iinfEnd hEnd s
    exact entryTurn_proper hEnd s

/-- A file of three chunks, the first of which is not allowed, is made anew. -/
theorem walkers_inside_private :
    (∃ y, stripWebpMetadata 100 privateFile 6 = .ok y ∧ privateFile.length < y.length) ∧
    carriesOnlyAllowedTypes 100 .webp privateFile = .ok false ∧
    ∀ s, Proper (fun _ => False) WebpState.offset privateFile.length s
      (stripTurn privateFile s) := by
  obtain ⟨hBoth, hAllowed, -, hTurns, -⟩ := walkers_inside privateFile 100 (by decide) (by decide)
  obtain ⟨y, hy, hLonger⟩ : ∃ y, Worker.stripWebpMetadata privateFile 6 = .ok y ∧
    privateFile.length < y.length := ⟨_, rfl, by decide⟩
  refine ⟨⟨y, ?_, hLonger⟩, (hAllowed .webp (by decide)).2, hTurns⟩
  rw [(hBoth 6 (by decide)).2.2.2, hy]
  rfl

end Pixaeron.Worker.Walkers
