import Pixaeron.Bytes.Loops
import Pixaeron.Worker.Cleanliness

/-! # Walkers inside the buffer

The walks over files at the offsets of the source, with the reads and writes of fixed width that
throw outside of the buffer. They end inside it, and are the walks over what is left of a file. -/

namespace Pixaeron.Worker.Walkers

open Bytes

inductive Fault where
  | outOfRange
  | unfinished
  | malformed (message : String)
  deriving DecidableEq, Repr

/-! ## Reads and writes -/

def readUInt16BE (buffer : ByteString) (offset : Nat) : Except Fault Nat :=
  if offset + 2 ≤ buffer.length then .ok (Bytes.readUInt16BE (buffer.drop offset))
    else .error .outOfRange

def readUInt32BE (buffer : ByteString) (offset : Nat) : Except Fault Nat :=
  if offset + 4 ≤ buffer.length then .ok (Bytes.readUInt32BE (buffer.drop offset))
    else .error .outOfRange

def readUInt32LE (buffer : ByteString) (offset : Nat) : Except Fault Nat :=
  if offset + 4 ≤ buffer.length then .ok (Bytes.readUInt32LE (buffer.drop offset))
    else .error .outOfRange

def overwrite (buffer field : ByteString) (offset : Nat) : ByteString :=
  buffer.take offset ++ field ++ buffer.drop (offset + field.length)

def writeUInt16BE (buffer : ByteString) (value offset : Nat) : Except Fault ByteString :=
  if value < 65536 ∧ offset + 2 ≤ buffer.length then .ok (overwrite buffer (uint16BE value) offset)
    else .error .outOfRange

def writeUInt16LE (buffer : ByteString) (value offset : Nat) : Except Fault ByteString :=
  if value < 65536 ∧ offset + 2 ≤ buffer.length then .ok (overwrite buffer (uint16LE value) offset)
    else .error .outOfRange

def writeUInt32LE (buffer : ByteString) (value offset : Nat) : Except Fault ByteString :=
  if value < 4294967296 ∧ offset + 4 ≤ buffer.length then
    .ok (overwrite buffer (uint32LE value) offset) else .error .outOfRange

def exifOrientationBlock (orientation : Nat) : Except Fault ByteString := do
  let tiff := overwrite (List.replicate 26 0) (latin1 "II") 0
  let tiff ← writeUInt16LE tiff 42 2
  let tiff ← writeUInt32LE tiff 8 4
  let tiff ← writeUInt16LE tiff 1 8
  let tiff ← writeUInt16LE tiff exifOrientationTag 10
  let tiff ← writeUInt16LE tiff 3 12
  let tiff ← writeUInt32LE tiff 1 14
  let tiff ← writeUInt16LE tiff orientation 18
  writeUInt32LE tiff 0 22

/-! ## JPEG -/

structure JpegState where
  kept : List ByteString
  offset : Nat

def jpegTurn (input : ByteString) (s : JpegState) : Except Fault (Turn JpegState ByteString) :=
  if s.offset + 4 ≤ input.length then
    if input[s.offset]? ≠ some 0xff then .error (.malformed "JPEG marker expected")
    else
      let marker := input.getD (s.offset + 1) 0
      if marker = jpegFill then .ok (.again { s with offset := s.offset + 1 })
      else if marker = jpegScan then
        match indexOf jpegEnd (input.drop s.offset) with
        | none => .error (.malformed "JPEG end marker not found")
        | some last => .ok (.done
          (s.kept ++ [subarray input s.offset (s.offset + last + jpegEnd.length)]).flatten)
      else do
        let length ← readUInt16BE input (s.offset + 2)
        let segment := subarray input s.offset (s.offset + 2 + length)
        .ok (.again
          { kept := if keepsSegment marker (segment.drop 4) then s.kept ++ [segment] else s.kept
            offset := s.offset + segment.length })
  else .error (.malformed "JPEG scan not found")

def rewriteJpegMetadata (rounds : Nat) (input : ByteString)
    (orientation : Nat) : Except Fault ByteString := do
  let inserted ←
    if orientation ≠ 1 then do
      let block ← exifOrientationBlock orientation
      let body := exifPrefix ++ block
      let header ← writeUInt16BE [0xff, jpegApp1, 0, 0] (body.length + 2) 2
      .ok [header, body]
    else .ok []
  loop .unfinished (jpegTurn input) rounds ⟨[input.take 2] ++ inserted, 2⟩

/-! ## WebP -/

structure WebpState where
  walk : WebpWalk
  offset : Nat

/-- The turn ends with `none` where the input is returned at once. -/
def stripTurn (input : ByteString) (s : WebpState) :
    Except Fault (Turn WebpState (Option WebpState)) :=
  if s.offset + 8 ≤ input.length then do
    let chunkType := subarray input s.offset (s.offset + 4)
    let length ← readUInt32LE input (s.offset + 4)
    let last := s.offset + 8 + length + length % 2
    if last > input.length then .ok (.done none)
    else if chunkType = webpFeatures ∧ length ≠ webpFeaturesLength then .ok (.done none)
    else .ok (.again ⟨s.walk.add chunkType (subarray input s.offset last), last⟩)
  else .ok (.done (some s))

def webpFile (input body : ByteString) : Except Fault ByteString := do
  let header ← writeUInt32LE (input.take webpHeader) (body.length + 4) 4
  .ok (header ++ body)

def stripWebpMetadata (rounds : Nat) (input : ByteString)
    (orientation : Nat) : Except Fault ByteString := do
  match ← loop .unfinished (stripTurn input) rounds ⟨⟨[], false, none⟩, webpHeader⟩ with
  | none => .ok input
  | some s =>
    if s.offset ≠ input.length ∨ !s.walk.keptImage then .ok input
    else if orientation ≠ 1 then
      match s.walk.features with
      | none => .ok input
      | some place => do
        let exif ← exifOrientationBlock orientation
        let header ← writeUInt32LE (overwrite (List.replicate 8 0) (latin1 "EXIF") 0) exif.length 4
        webpFile input (s.walk.kept.modify place setExifFlag ++ [header, exif]).flatten
    else webpFile input s.walk.kept.flatten

/-! ## The walks of `carriesOnlyAllowedTypes` -/

def pngTurn (input : ByteString) (offset : Nat) : Except Fault (Turn Nat Bool) :=
  if offset + 8 ≤ input.length then do
    let length ← readUInt32BE input offset
    let chunkType := subarray input (offset + 4) (offset + 8)
    if chunkType = latin1 "IEND" then .ok (.done (offset + 12 + length = input.length))
    else if !pngCleanChunks.contains chunkType then .ok (.done false)
    else .ok (.again (offset + 12 + length))
  else .ok (.done false)

def webpTurn (input : ByteString) (offset : Nat) : Except Fault (Turn Nat Bool) :=
  if offset + 8 ≤ input.length then
    let chunkType := subarray input offset (offset + 4)
    if !webpCleanChunks.contains chunkType then .ok (.done false)
    else do
      let length ← readUInt32LE input (offset + 4)
      if chunkType = webpFeatures ∧ length ≠ webpFeaturesLength then .ok (.done false)
      else .ok (.again (offset + 8 + length + length % 2))
  else .ok (.done (offset = input.length))

structure AvifState where
  items : List ByteString
  offset : Nat

/-- A turn over the entries of an item list. It ends with `none` where the file is found unclean. -/
def entryTurn (input : ByteString) (iinfEnd : Nat) (s : AvifState) :
    Except Fault (Turn AvifState (Option (List ByteString))) :=
  if s.offset + isobmffFullBoxHeader ≤ iinfEnd then do
    let entryLength ← readUInt32BE input s.offset
    if subarray input (s.offset + 4) (s.offset + 8) ≠ latin1 "infe" ∨
      entryLength < isobmffFullBoxHeader + 8 then .ok (.done none)
    else
      let idBytes := if input[s.offset + 8]? = some 2 then 2 else 4
      let typeAt := s.offset + isobmffFullBoxHeader + idBytes + 2
      .ok (.again ⟨s.items ++ [subarray input typeAt (typeAt + 4)], s.offset + entryLength⟩)
  else .ok (.done (some s.items))

def childTurn (rounds : Nat) (input boxType : ByteString) (boxEnd : Nat) (s : AvifState) :
    Except Fault (Turn AvifState (Option (List ByteString))) :=
  if boxType = latin1 "meta" ∧ s.offset + 8 ≤ boxEnd then do
    let childLength ← readUInt32BE input s.offset
    if childLength < 8 then .ok (.done none)
    else if subarray input (s.offset + 4) (s.offset + 8) = latin1 "iinf" then
      let countBytes := if input[s.offset + 8]? = some 0 then 2 else 4
      let iinfEnd := min (s.offset + childLength) input.length
      match ← loop .unfinished (entryTurn input iinfEnd) rounds ⟨s.items,
        s.offset + isobmffFullBoxHeader + countBytes⟩ with
      | none => .ok (.done none)
      | some items => .ok (.again ⟨items, s.offset + childLength⟩)
    else .ok (.again ⟨s.items, s.offset + childLength⟩)
  else .ok (.done (some s.items))

def boxTurn (rounds : Nat) (input : ByteString) (s : AvifState) :
    Except Fault (Turn AvifState Bool) :=
  if s.offset + 8 ≤ input.length then do
    let length ← readUInt32BE input s.offset
    let boxType := subarray input (s.offset + 4) (s.offset + 8)
    if !avifCleanBoxes.contains boxType ∨ length < 8 then .ok (.done false)
    else
      let boxEnd := min (s.offset + length) input.length
      match ← loop .unfinished (childTurn rounds input boxType boxEnd) rounds ⟨s.items,
        s.offset + isobmffFullBoxHeader⟩ with
      | none => .ok (.done false)
      | some items => .ok (.again ⟨items, s.offset + length⟩)
  else .ok (.done (s.offset = input.length && s.items.length > 0 &&
    s.items.all avifCleanItems.contains))

def carriesOnlyAllowedTypes (rounds : Nat) (format : Conversion.ConversionImageFormat)
    (input : ByteString) : Except Fault Bool :=
  match format with
  | .jpeg => do
    let rewritten ← rewriteJpegMetadata rounds input 1
    .ok (rewritten = input)
  | .png => loop .unfinished (pngTurn input) rounds 8
  | .webp => do
    let size ← readUInt32LE input 4
    if size + 8 ≠ input.length then .ok false
    else loop .unfinished (webpTurn input) rounds webpHeader
  | .avif => loop .unfinished (boxTurn rounds input) rounds ⟨[], 0⟩

/-! ## One turn -/

section Turns

variable {rounds : Nat} {input : ByteString} {offset : Nat}

theorem readUInt16BE_ok (h : offset + 2 ≤ input.length) :
    readUInt16BE input offset = .ok (Bytes.readUInt16BE (input.drop offset)) := if_pos h

theorem readUInt32BE_ok (h : offset + 4 ≤ input.length) :
    readUInt32BE input offset = .ok (Bytes.readUInt32BE (input.drop offset)) := if_pos h

theorem readUInt32LE_ok (h : offset + 4 ≤ input.length) :
    readUInt32LE input offset = .ok (Bytes.readUInt32LE (input.drop offset)) := if_pos h

/-- The errors of the rewriter. -/
def IsMalformed (e : Fault) : Prop :=
  e ∈ [Fault.malformed "JPEG marker expected", Fault.malformed "JPEG end marker not found",
    Fault.malformed "JPEG scan not found"]

theorem length_subarray {first last : Nat} :
    (subarray input first last).length = min last input.length - first := by
  rw [subarray, List.length_take, List.length_drop]
  omega

theorem jpegTurn_proper (s : JpegState) :
    Proper IsMalformed JpegState.offset input.length s (jpegTurn input s) := by
  unfold jpegTurn
  split
  case isFalse => simp [Proper, IsMalformed]
  case isTrue hInside =>
    rw [readUInt16BE_ok (by omega)]
    split
    case isTrue => simp [Proper, IsMalformed]
    case isFalse =>
      dsimp only
      split
      · exact ⟨by omega, Nat.lt_succ_self _⟩
      · split
        · split <;> simp [Proper, IsMalformed]
        · refine ⟨by omega, ?_⟩
          change s.offset < s.offset + (subarray input s.offset _).length
          rw [length_subarray]
          omega

theorem stripTurn_proper (s : WebpState) :
    Proper (fun _ => False) WebpState.offset input.length s (stripTurn input s) := by
  unfold stripTurn
  split
  case isFalse => trivial
  case isTrue hInside =>
    rw [readUInt32LE_ok (by omega)]
    change Proper _ _ _ _ (if _ then _ else _)
    split
    · trivial
    · split
      · trivial
      · exact ⟨by omega, by dsimp only; omega⟩

theorem pngTurn_proper (offset : Nat) :
    Proper (fun _ => False) id input.length offset (pngTurn input offset) := by
  unfold pngTurn
  split
  case isFalse => trivial
  case isTrue hInside =>
    rw [readUInt32BE_ok (by omega)]
    change Proper _ _ _ _ (if _ then _ else _)
    split
    · trivial
    · split
      · trivial
      · exact ⟨by dsimp only [id]; omega, by dsimp only [id]; omega⟩

theorem webpTurn_proper (offset : Nat) :
    Proper (fun _ => False) id input.length offset (webpTurn input offset) := by
  unfold webpTurn
  split
  case isFalse => trivial
  case isTrue hInside =>
    rw [readUInt32LE_ok (by omega)]
    dsimp only
    split
    · trivial
    · change Proper _ _ _ _ (if _ then _ else _)
      split
      · trivial
      · exact ⟨by dsimp only [id]; omega, by dsimp only [id]; omega⟩

theorem entryTurn_proper {iinfEnd : Nat} (hEnd : iinfEnd ≤ input.length) (s : AvifState) :
    Proper (fun _ => False) AvifState.offset input.length s (entryTurn input iinfEnd s) := by
  unfold entryTurn
  split
  case isFalse => trivial
  case isTrue hInside =>
    rw [isobmffFullBoxHeader] at hInside
    rw [readUInt32BE_ok (by omega)]
    change Proper _ _ _ _ (if _ then _ else _)
    split
    · trivial
    · next hEntry =>
      rw [not_or, isobmffFullBoxHeader] at hEntry
      exact ⟨by omega, by dsimp only; omega⟩

theorem exists_entries (hRounds : input.length < rounds) {iinfEnd : Nat}
    (hEnd : iinfEnd ≤ input.length) (s : AvifState) :
    ∃ found, loop .unfinished (entryTurn input iinfEnd) rounds s = .ok found :=
  exists_result (entryTurn_proper hEnd) (by omega)

theorem childTurn_proper (hRounds : input.length < rounds) (boxType : ByteString) {boxEnd : Nat}
    (hEnd : boxEnd ≤ input.length) (s : AvifState) :
    Proper (fun _ => False) AvifState.offset input.length s
      (childTurn rounds input boxType boxEnd s) := by
  unfold childTurn
  split
  case isFalse => trivial
  case isTrue hInside =>
    rw [readUInt32BE_ok (by omega)]
    change Proper _ _ _ _ (if _ then _ else _)
    split
    · trivial
    · split
      · obtain ⟨found, hFound⟩ := exists_entries hRounds
          (Nat.min_le_right (s.offset + Bytes.readUInt32BE (input.drop s.offset)) input.length)
          ⟨s.items, s.offset + isobmffFullBoxHeader + if input[s.offset + 8]? =
            some 0 then 2 else 4⟩
        dsimp only
        rw [hFound]
        cases found with
        | none => trivial
        | some items => exact ⟨by omega, by dsimp only; omega⟩
      · exact ⟨by omega, by dsimp only; omega⟩

theorem exists_children (hRounds : input.length < rounds) (boxType : ByteString) {boxEnd : Nat}
    (hEnd : boxEnd ≤ input.length) (s : AvifState) :
    ∃ found, loop .unfinished (childTurn rounds input boxType boxEnd) rounds s = .ok found :=
  exists_result (childTurn_proper hRounds boxType hEnd) (by omega)

theorem boxTurn_proper (hRounds : input.length < rounds) (s : AvifState) :
    Proper (fun _ => False) AvifState.offset input.length s (boxTurn rounds input s) := by
  unfold boxTurn
  split
  case isFalse => trivial
  case isTrue hInside =>
    rw [readUInt32BE_ok (by omega)]
    change Proper _ _ _ _ (if _ then _ else _)
    split
    · trivial
    · next hClean =>
      rw [not_or] at hClean
      obtain ⟨found, hFound⟩ :=
        exists_children hRounds (subarray input (s.offset + 4) (s.offset + 8))
        (Nat.min_le_right (s.offset + Bytes.readUInt32BE (input.drop s.offset)) input.length)
          ⟨s.items, s.offset + isobmffFullBoxHeader⟩
      rw [hFound]
      cases found with
      | none => trivial
      | some items => exact ⟨by omega, by dsimp only; omega⟩

end Turns

/-! ## Writes -/

section Writes

variable {buffer field : ByteString} {value offset orientation : Nat}

theorem writeUInt16BE_ok (h : value < 65536) (hInside : offset + 2 ≤ buffer.length) :
    writeUInt16BE buffer value offset = .ok (overwrite buffer (uint16BE value) offset) :=
  if_pos ⟨h, hInside⟩

theorem writeUInt16LE_ok (h : value < 65536) (hInside : offset + 2 ≤ buffer.length) :
    writeUInt16LE buffer value offset = .ok (overwrite buffer (uint16LE value) offset) :=
  if_pos ⟨h, hInside⟩

theorem writeUInt32LE_ok (h : value < 4294967296) (hInside : offset + 4 ≤ buffer.length) :
    writeUInt32LE buffer value offset = .ok (overwrite buffer (uint32LE value) offset) :=
  if_pos ⟨h, hInside⟩

theorem latin1_II : latin1 "II" = [73, 73] := by decide +kernel

/-- All of the block that does not depend on the orientation. -/
def tiffStart : ByteString :=
  [73, 73, 42, 0, 8, 0, 0, 0, 1, 0, 0x12, 0x01, 3, 0, 1, 0, 0, 0, 0, 0, 0, 0, 0, 0, 0, 0]

theorem exifOrientationBlock_eq :
    exifOrientationBlock orientation = (writeUInt16LE tiffStart orientation 18).bind fun tiff =>
      writeUInt32LE tiff 0 22 := by
  rw [exifOrientationBlock, latin1_II]
  rfl

theorem exifOrientationBlock_ok (h : orientation < 65536) :
    ∃ block, exifOrientationBlock orientation = .ok block ∧
      Worker.exifOrientationBlock orientation = .ok block ∧ block.length = 26 := by
  refine ⟨_, ?_, if_pos h, ?_⟩
  · rw [exifOrientationBlock_eq, writeUInt16LE_ok h (by decide), latin1_II]
    rfl
  · simp [latin1_II]

end Writes

/-! ## The walks over what is left -/

section Rests

variable {n rounds : Nat} {input : ByteString} {offset : Nat}

theorem drop_eq_four (h : offset + 4 ≤ input.length) :
    ∃ a b c d rest, input.drop offset = a :: b :: c :: d :: rest := by
  have hLength : 4 ≤ (input.drop offset).length := by
    rw [List.length_drop]
    omega
  match input.drop offset, hLength with
  | a :: b :: c :: d :: rest, _ => exact ⟨a, b, c, d, rest, rfl⟩

theorem subarray_drop {length : Nat} :
    subarray input offset (offset + length) = (input.drop offset).take length := by
  rw [subarray, Nat.add_sub_cancel_left]

theorem jpegTurn_eq {s : JpegState} {first marker high low : UInt8} {rest : ByteString}
    (h : input.drop s.offset = first :: marker :: high :: low :: rest) :
    jpegTurn input s =
      if first ≠ 0xff then .error (.malformed "JPEG marker expected")
      else if marker = jpegFill then .ok (.again { s with offset := s.offset + 1 })
      else if marker = jpegScan then
        ((indexOf jpegEnd (input.drop s.offset)).map fun last =>
          .ok (.done (s.kept ++ [(input.drop s.offset).take (last + jpegEnd.length)]).flatten)).getD
            (.error (.malformed "JPEG end marker not found"))
      else
        let segment := (input.drop s.offset).take (2 + Bytes.readUInt16BE (high :: low :: rest))
        .ok (.again
          { kept := if keepsSegment marker (segment.drop 4) then s.kept ++ [segment] else s.kept
            offset := s.offset + segment.length }) := by
  have hAt : ∀ j, input[s.offset + j]? = (first :: marker :: high :: low :: rest)[j]? := by
    intro j
    rw [← h, List.getElem?_drop]
  have hFirst : input[s.offset]? = some first := hAt 0
  have hMarker : input.getD (s.offset + 1) 0 = marker := by
    rw [List.getD_eq_getElem?_getD, hAt 1]; rfl
  have hRead : input.drop (s.offset + 2) = high :: low :: rest := by rw [← List.drop_drop, h]; rfl
  have hInside : s.offset + 4 ≤ input.length := by
    have hLength := congrArg List.length h
    simp only [List.length_drop, List.length_cons] at hLength
    omega
  rw [jpegTurn, if_pos hInside, hFirst, hMarker, readUInt16BE_ok (by omega), hRead]
  simp only [ne_eq, Option.some.injEq, Nat.add_assoc, subarray_drop]
  split
  · rfl
  · split
    · rfl
    · split
      · cases indexOf jpegEnd (input.drop s.offset) <;> rfl
      · rfl

theorem jpeg_loop {s : JpegState} (hRounds : input.length - s.offset < n) :
    loop .unfinished (jpegTurn input) n s =
      ((walkSegments n (input.drop s.offset)).map fun kept => (s.kept ++ kept).flatten).mapError
        .malformed := by
  induction n generalizing s with
  | zero => omega
  | succ n ih =>
    by_cases hInside : s.offset + 4 ≤ input.length
    · obtain ⟨first, marker, high, low, rest, hRest⟩ := drop_eq_four hInside
      have hTurn := jpegTurn_eq hRest
      rw [hRest, walkSegments]
      rw [hRest] at hTurn
      split at hTurn
      · next hFirst => rw [loop_error hTurn, if_pos hFirst]; rfl
      · next hFirst =>
        rw [if_neg hFirst]
        split at hTurn
        · next hFill =>
          have hNext : input.drop (s.offset + 1) = marker :: high :: low :: rest := by
            rw [← List.drop_drop, hRest]; rfl
          rw [loop_again hTurn, if_pos hFill, ← hNext]
          exact ih (by dsimp only; omega)
        · next hFill =>
          rw [if_neg hFill]
          split at hTurn
          · next hScan =>
            rw [if_pos hScan]
            cases hEnd : indexOf jpegEnd (first :: marker :: high :: low :: rest) with
            | none =>
              rw [hEnd] at hTurn
              rw [loop_error hTurn]
              rfl
            | some last =>
              rw [hEnd] at hTurn
              rw [loop_done hTurn]
              rfl
          · next hScan =>
            have hLength : 2 ≤ ((first :: marker :: high :: low :: rest).take
              (2 + Bytes.readUInt16BE (high :: low :: rest))).length := by
              rw [List.length_take, List.length_cons, List.length_cons]
              omega
            rw [loop_again hTurn, if_neg hScan, ih (by dsimp only; omega)]
            dsimp only
            rw [← List.drop_drop, hRest]
            cases walkSegments n _ with
            | error message => rfl
            | ok kept =>
              dsimp only [Except.map, Except.mapError]
              split <;> simp
    · have hTurn : jpegTurn input s = .error (.malformed "JPEG scan not found") := if_neg hInside
      rw [loop_error hTurn]
      have hShort : (input.drop s.offset).length < 4 := by
        rw [List.length_drop]
        omega
      have hNone : walkSegments (n + 1) (input.drop s.offset) = .error "JPEG scan not found" := by
        match input.drop s.offset, hShort with
        | [], _ => rfl
        | [_], _ => rfl
        | [_, _], _ => rfl
        | [_, _, _], _ => rfl
      rw [hNone]
      rfl

theorem png_loop (hRounds : input.length - offset < n) :
    loop .unfinished (pngTurn input) n offset = .ok (onlyCleanPng input n offset) := by
  induction n generalizing offset with
  | zero => omega
  | succ n ih =>
    by_cases hInside : offset + 8 ≤ input.length
    · have hTurn : pngTurn input offset = if subarray input (offset + 4) (offset + 8) =
        latin1 "IEND" then
          .ok (.done (offset + 12 + Bytes.readUInt32BE (input.drop offset) = input.length))
          else if !pngCleanChunks.contains (subarray input (offset + 4) (offset + 8)) then
            .ok (.done false)
          else .ok (.again (offset + 12 + Bytes.readUInt32BE (input.drop offset))) := by
        rw [pngTurn, if_pos hInside, readUInt32BE_ok (by omega)]
        rfl
      rw [onlyCleanPng, if_pos hInside]
      dsimp only
      split at hTurn
      · next hEnd => rw [loop_done hTurn, if_pos hEnd]
      · next hEnd =>
        rw [if_neg hEnd]
        split at hTurn
        · next hClean => rw [loop_done hTurn, if_pos hClean]
        · next hClean =>
          rw [loop_again hTurn, if_neg hClean]
          exact ih (by omega)
    · have hTurn : pngTurn input offset = .ok (.done false) := if_neg hInside
      rw [loop_done hTurn, onlyCleanPng, if_neg hInside]

theorem webp_loop (hInside : offset ≤ input.length) (hRounds : input.length - offset < n) :
    loop .unfinished (webpTurn input) n offset = .ok (onlyCleanChunks n (input.drop offset)) := by
  induction n generalizing offset with
  | zero => omega
  | succ n ih =>
    by_cases hHeader : offset + 8 ≤ input.length
    · have hLong : ¬ (input.drop offset).length < 8 := by
        rw [List.length_drop]
        omega
      have hType : subarray input offset (offset + 4) = (input.drop offset).take 4 := subarray_drop
      have hTurn : webpTurn input offset =
        if !webpCleanChunks.contains ((input.drop offset).take 4) then .ok (.done false)
          else if (input.drop offset).take 4 = webpFeatures ∧
            Bytes.readUInt32LE ((input.drop offset).drop 4) ≠ webpFeaturesLength then
            .ok (.done false)
          else .ok (.again (offset + 8 + Bytes.readUInt32LE ((input.drop offset).drop 4) +
            Bytes.readUInt32LE ((input.drop offset).drop 4) % 2)) := by
        rw [webpTurn, if_pos hHeader, hType, readUInt32LE_ok (by omega), List.drop_drop]
        rfl
      rw [onlyCleanChunks, if_neg hLong]
      split at hTurn
      · next hClean => rw [loop_done hTurn, if_pos hClean]
      · next hClean =>
        rw [if_neg hClean]
        dsimp only
        split at hTurn
        · next hFeatures => rw [loop_done hTurn, if_pos hFeatures]
        · next hFeatures =>
          rw [loop_again hTurn, if_neg hFeatures]
          obtain ⟨size, hSize⟩ : ∃ size, size =
            8 + Bytes.readUInt32LE ((input.drop offset).drop 4) +
            Bytes.readUInt32LE ((input.drop offset).drop 4) % 2 := ⟨_, rfl⟩
          have hNext : offset + 8 + Bytes.readUInt32LE ((input.drop offset).drop 4) +
            Bytes.readUInt32LE ((input.drop offset).drop 4) % 2 = offset + size := by omega
          rw [← hSize, hNext]
          split
          · next hShort =>
            -- the chunk goes beyond the end, and so does the offset in the turn that follows
            rw [List.length_drop] at hShort
            obtain ⟨m, rfl⟩ : ∃ m, n = m + 1 := ⟨n - 1, by omega⟩
            have hBeyond : webpTurn input (offset + size) =
              .ok (.done (offset + size = input.length)) := if_neg (by omega)
            rw [loop_done hBeyond, decide_eq_false (by omega)]
          · next hShort =>
            rw [List.length_drop, Nat.not_lt] at hShort
            rw [List.drop_drop]
            exact ih (by omega) (by omega)
    · have hTurn : webpTurn input offset = .ok (.done (offset = input.length)) := if_neg hHeader
      have hShort : (input.drop offset).length < 8 := by
        rw [List.length_drop]
        omega
      rw [loop_done hTurn, onlyCleanChunks, if_pos hShort]
      congr 1
      rw [decide_eq_decide, List.drop_eq_nil_iff]
      omega

theorem strip_loop {s : WebpState} (hInside : s.offset ≤ input.length)
    (hRounds : input.length - s.offset < n) :
    (walkWebp n (input.drop s.offset) s.walk = none ∧
      loop .unfinished (stripTurn input) n s = .ok none) ∨
    ∃ t : WebpState, t.offset ≤ input.length ∧
      walkWebp n (input.drop s.offset) s.walk = some (t.walk, input.drop t.offset) ∧
      loop .unfinished (stripTurn input) n s = .ok (some t) := by
  induction n generalizing s with
  | zero => omega
  | succ n ih =>
    by_cases hHeader : s.offset + 8 ≤ input.length
    · have hLong : ¬ (input.drop s.offset).length < 8 := by
        rw [List.length_drop]
        omega
      obtain ⟨length, hLength⟩ : ∃ length, length =
        Bytes.readUInt32LE ((input.drop s.offset).drop 4) := ⟨_, rfl⟩
      have hTurn : stripTurn input s = if s.offset + 8 + length + length % 2 > input.length then
        .ok (.done none)
          else if (input.drop s.offset).take 4 = webpFeatures ∧
            length ≠ webpFeaturesLength then .ok (.done none)
          else .ok (.again ⟨s.walk.add ((input.drop s.offset).take 4)
            (subarray input s.offset (s.offset + 8 + length + length % 2)),
            s.offset + 8 + length + length % 2⟩) := by
        rw [hLength, stripTurn, if_pos hHeader, subarray_drop, readUInt32LE_ok (by omega),
          List.drop_drop]
        rfl
      rw [walkWebp, if_neg hLong]
      dsimp only
      rw [← hLength]
      obtain ⟨size, hSize⟩ : ∃ size, size = 8 + length + length % 2 := ⟨_, rfl⟩
      have hNext : s.offset + 8 + length + length % 2 = s.offset + size := by omega
      rw [hNext] at hTurn
      rw [← hSize]
      split at hTurn
      · next hBeyond =>
        have hShort : (input.drop s.offset).length < size := by
          rw [List.length_drop]
          omega
        exact .inl ⟨if_pos hShort, loop_done hTurn⟩
      · next hFits =>
        have hWhole : ¬ (input.drop s.offset).length < size := by
          rw [List.length_drop]
          omega
        rw [if_neg hWhole]
        split at hTurn
        · next hFeatures => exact .inl ⟨if_pos hFeatures, loop_done hTurn⟩
        · next hFeatures =>
          rw [if_neg hFeatures, loop_again hTurn, List.drop_drop,
            ← @subarray_drop input s.offset size]
          exact @ih ⟨_, s.offset + size⟩ (by dsimp only; omega) (by dsimp only; omega)
    · have hTurn : stripTurn input s = .ok (.done (some s)) := if_neg hHeader
      have hShort : (input.drop s.offset).length < 8 := by
        rw [List.length_drop]
        omega
      exact .inr ⟨s, hInside, by rw [walkWebp, if_pos hShort], loop_done hTurn⟩

theorem entry_loop {iinfEnd : Nat} (hEnd : iinfEnd ≤ input.length) {s : AvifState}
    (hRounds : input.length - s.offset < n) :
    loop .unfinished (entryTurn input iinfEnd) n s =
      .ok (avifEntries input iinfEnd n s.offset s.items) := by
  induction n generalizing s with
  | zero => omega
  | succ n ih =>
    by_cases hInside : s.offset + isobmffFullBoxHeader ≤ iinfEnd
    · have hRead : s.offset + 4 ≤ input.length := by
        rw [isobmffFullBoxHeader] at hInside
        omega
      obtain ⟨length, hLength⟩ : ∃ length, length = Bytes.readUInt32BE (input.drop s.offset) :=
        ⟨_, rfl⟩
      have hTurn : entryTurn input iinfEnd s =
          if subarray input (s.offset + 4) (s.offset + 8) ≠ latin1 "infe" ∨
            length < isobmffFullBoxHeader + 8 then .ok (.done none)
          else
            let typeAt :=
              s.offset + isobmffFullBoxHeader + (if input[s.offset + 8]? = some 2 then 2 else 4) + 2
            .ok (.again ⟨s.items ++ [subarray input typeAt (typeAt + 4)], s.offset + length⟩) := by
        rw [hLength, entryTurn, if_pos hInside, readUInt32BE_ok hRead]
        rfl
      rw [avifEntries, if_pos hInside]
      simp only [← hLength, Bool.or_eq_true, decide_eq_true_eq]
      split at hTurn
      · next hStop => rw [loop_done hTurn, if_pos hStop]
      · next hEntry =>
        rw [loop_again hTurn, if_neg hEntry]
        rw [not_or, isobmffFullBoxHeader] at hEntry
        exact ih (by dsimp only; omega)
    · have hTurn : entryTurn input iinfEnd s = .ok (.done (some s.items)) := if_neg hInside
      rw [loop_done hTurn, avifEntries, if_neg hInside]

theorem entries_found {iinfEnd : Nat} (hEnd : iinfEnd ≤ input.length)
    (hRounds : input.length < rounds) {s : AvifState} (hStart : 0 < s.offset)
    (hSome : 0 < input.length) :
    loop .unfinished (entryTurn input iinfEnd) rounds s =
      .ok (avifEntries input iinfEnd input.length s.offset s.items) := by
  have hAdvances := Advances.of_proper (entryTurn_proper hEnd)
  rw [hAdvances.stable (m := input.length) (by omega) (by omega)]
  exact entry_loop hEnd (by omega)

/-- A turn over the boxes in a `meta` box. -/
theorem childTurn_eq (hRounds : input.length < rounds) {boxEnd : Nat} (hEnd : boxEnd ≤ input.length)
    {s : AvifState} (hInside : s.offset + 8 ≤ boxEnd) :
    childTurn rounds input (latin1 "meta") boxEnd s =
      if Bytes.readUInt32BE (input.drop s.offset) < 8 then .ok (.done none)
      else .ok ((if subarray input (s.offset + 4) (s.offset + 8) = latin1 "iinf" then
          avifEntries input (min (s.offset + Bytes.readUInt32BE (input.drop s.offset)) input.length)
            input.length
            (s.offset + isobmffFullBoxHeader + if input[s.offset + 8]? = some 0 then 2
              else 4) s.items
        else some s.items).elim (.done none) fun items =>
          .again ⟨items, s.offset + Bytes.readUInt32BE (input.drop s.offset)⟩) := by
  rw [childTurn, if_pos ⟨rfl, hInside⟩, readUInt32BE_ok (by omega)]
  change (if _ then _ else _) = _
  split
  · rfl
  · dsimp only
    split
    · rw [entries_found (Nat.min_le_right ..) hRounds
        (by dsimp only [isobmffFullBoxHeader]; omega) (by omega)]
      dsimp only
      cases avifEntries input _ _ _ _ <;> rfl
    · rfl

theorem child_loop (hInput : input.length < rounds) {boxEnd : Nat} (hEnd : boxEnd ≤ input.length)
    {s : AvifState} (hRounds : input.length - s.offset < n) :
    loop .unfinished (childTurn rounds input (latin1 "meta") boxEnd) n s =
      .ok (avifChildren input boxEnd n s.offset s.items) := by
  induction n generalizing s with
  | zero => omega
  | succ n ih =>
    by_cases hInside : s.offset + 8 ≤ boxEnd
    · have hTurn := childTurn_eq hInput hEnd hInside
      rw [avifChildren, if_pos hInside]
      dsimp only
      split at hTurn
      · next hShort => rw [loop_done hTurn, if_pos hShort]
      · next hLong =>
        rw [if_neg hLong]
        split
        · next hList =>
          rw [if_pos hList] at hTurn
          cases hFound : avifEntries input
            (min (s.offset + Bytes.readUInt32BE (input.drop s.offset)) input.length) input.length
              (s.offset + isobmffFullBoxHeader + if input[s.offset + 8]? = some 0 then 2
                else 4) s.items with
          | none =>
            rw [hFound] at hTurn
            exact loop_done hTurn
          | some items =>
            rw [hFound] at hTurn
            rw [loop_again hTurn]
            exact ih (by dsimp only; omega)
        · next hOther =>
          rw [if_neg hOther] at hTurn
          rw [loop_again hTurn]
          exact ih (by dsimp only; omega)
    · have hTurn : childTurn rounds input (latin1 "meta") boxEnd s = .ok (.done (some s.items)) :=
        if_neg fun h => hInside h.2
      rw [loop_done hTurn, avifChildren, if_neg hInside]

theorem children_found (hRounds : input.length < rounds) (boxType : ByteString) {boxEnd : Nat}
    (hEnd : boxEnd ≤ input.length) {s : AvifState} (hStart : 0 < s.offset)
    (hSome : 0 < input.length) :
    loop .unfinished (childTurn rounds input boxType boxEnd) rounds s =
      .ok (if boxType = latin1 "meta" then avifChildren input boxEnd input.length s.offset s.items
        else some s.items) := by
  split
  · next hMeta =>
    have hAdvances := Advances.of_proper (childTurn_proper hRounds boxType hEnd)
    rw [hAdvances.stable (m := input.length) (by omega) (by omega), hMeta]
    exact child_loop hRounds hEnd (by omega)
  · next hOther =>
    obtain ⟨n, rfl⟩ : ∃ n, rounds = n + 1 := ⟨rounds - 1, by omega⟩
    exact loop_done (if_neg fun h => hOther h.1)

theorem boxTurn_eq (hRounds : input.length < rounds) {s : AvifState}
    (hInside : s.offset + 8 ≤ input.length) :
    boxTurn rounds input s =
      if !avifCleanBoxes.contains (subarray input (s.offset + 4) (s.offset + 8)) ∨
        Bytes.readUInt32BE (input.drop s.offset) < 8 then
        .ok (.done false)
      else .ok ((if subarray input (s.offset + 4) (s.offset + 8) = latin1 "meta" then
          avifChildren input (min (s.offset + Bytes.readUInt32BE (input.drop s.offset))
            input.length) input.length
            (s.offset + isobmffFullBoxHeader) s.items
        else some s.items).elim (.done false) fun items =>
          .again ⟨items, s.offset + Bytes.readUInt32BE (input.drop s.offset)⟩) := by
  rw [boxTurn, if_pos hInside, readUInt32BE_ok (by omega)]
  change (if _ then _ else _) = _
  split
  · rfl
  · rw [children_found hRounds _ (Nat.min_le_right ..)
      (by dsimp only [isobmffFullBoxHeader]; omega) (by omega)]
    dsimp only
    cases (if subarray input (s.offset + 4) (s.offset + 8) = latin1 "meta" then _
      else some s.items : Option (List ByteString)) <;> rfl

theorem box_loop (hInput : input.length < rounds) {s : AvifState}
    (hRounds : input.length - s.offset < n) :
    loop .unfinished (boxTurn rounds input) n s = .ok (onlyCleanAvif input n s.offset s.items) := by
  induction n generalizing s with
  | zero => omega
  | succ n ih =>
    by_cases hInside : s.offset + 8 ≤ input.length
    · have hTurn := boxTurn_eq hInput hInside
      rw [onlyCleanAvif, if_pos hInside]
      simp only [Bool.or_eq_true, decide_eq_true_eq]
      split at hTurn
      · next hStop => rw [loop_done hTurn, if_pos hStop]
      · next hBox =>
        rw [if_neg hBox]
        rw [not_or] at hBox
        cases hFound : (if subarray input (s.offset + 4) (s.offset + 8) = latin1 "meta" then
            avifChildren input (min (s.offset + Bytes.readUInt32BE (input.drop s.offset))
              input.length) input.length
              (s.offset + isobmffFullBoxHeader) s.items
          else some s.items) with
        | none =>
          rw [hFound] at hTurn
          exact loop_done hTurn
        | some items =>
          rw [hFound] at hTurn
          rw [loop_again hTurn]
          exact ih (by dsimp only; omega)
    · have hTurn : boxTurn rounds input s =
          .ok (.done (s.offset = input.length && s.items.length > 0 &&
            s.items.all avifCleanItems.contains)) := if_neg hInside
      rw [loop_done hTurn, onlyCleanAvif, if_neg hInside]

end Rests

end Pixaeron.Worker.Walkers
