import Pixaeron.Bytes.Padded
import Pixaeron.Worker.JpegNormalForm

/-! # Whole JPEG streams

The rewriter reads segments up to the first scan and copies what follows up to the first end marker
it finds. On a stream with segments between its scans that is the right thing only if there is
nothing to leave out among them and no end marker inside them.
-/

namespace Pixaeron.Worker

open Bytes

/-- The markers that a length and a payload follow, the start of a scan apart. -/
def introducesSegment (marker : UInt8) : Bool :=
  marker ≠ 0 && marker ≠ 1 && !(0xd0 ≤ marker && marker ≤ 0xda) && marker ≠ 0xff

structure StreamSegment extends FilledSegment where
  legal : introducesSegment segment.marker = true

/-- A part of the entropy-coded data of a scan. -/
inductive Entropy
  | literal (b : UInt8) (h : b ≠ 0xff)
  | stuffed
  | restart (fill : Nat) (n : Fin 8)

def Entropy.bytes : Entropy → ByteString
  | .literal b _ => [b]
  | .stuffed => [0xff, 0]
  | .restart fill n => List.replicate fill 0xff ++ [0xff, 0xd0 + UInt8.ofNat n]

/-- A scan and the segments before it. -/
structure StreamScan where
  segments : List StreamSegment
  fill : Nat
  header : ByteString
  fits : header.length + 2 < 65536
  data : List Entropy

/-- The scan's own segment and its data. -/
def StreamScan.start (scan : StreamScan) : ByteString :=
  [0xff, jpegScan] ++ uint16BE (scan.header.length + 2) ++ scan.header ++
    scan.data.flatMap Entropy.bytes

structure JpegStream where
  first : StreamScan
  later : List StreamScan
  endFill : Nat
  trailing : ByteString

/-- A comment, or an application segment that the decoding does not need. -/
def Segment.isMetadata (s : Segment) : Bool :=
  s.marker = jpegComment || (isApplication s.marker && !isDecodingHint s.marker s.payload)

/-! ## What a stream consists of -/

def StreamSegment.piece (s : StreamSegment) : PaddedItem UInt8 :=
  ⟨s.fill, s.segment.bytes, !s.segment.isMetadata⟩

def StreamScan.pieces (scan : StreamScan) : List (PaddedItem UInt8) :=
  scan.segments.map StreamSegment.piece ++ [⟨scan.fill, scan.start, true⟩]

def JpegStream.endPiece (stream : JpegStream) : PaddedItem UInt8 := ⟨stream.endFill, jpegEnd, true⟩

def JpegStream.pieces (stream : JpegStream) : List (PaddedItem UInt8) :=
  stream.first.pieces ++ stream.later.flatMap StreamScan.pieces ++ [stream.endPiece]

/-- From the start of the first scan to the end of the stream. -/
def JpegStream.scanPieces (stream : JpegStream) : List (PaddedItem UInt8) :=
  ⟨0, stream.first.start, true⟩ :: stream.later.flatMap StreamScan.pieces ++ [stream.endPiece]

def piecesBytes (pieces : List (PaddedItem UInt8)) : ByteString :=
  pieces.flatMap (PaddedItem.text 0xff)

def JpegStream.bytes (stream : JpegStream) : ByteString :=
  [0xff, 0xd8] ++ piecesBytes stream.pieces ++ stream.trailing

/-- What should be left of the stream, in its order. -/
def JpegStream.kept (stream : JpegStream) : List ByteString := keptItems stream.pieces

def orientationBytes (block : ByteString) : ByteString :=
  [0xff, jpegApp1] ++ uint16BE ((exifPrefix ++ block).length + 2) ++ (exifPrefix ++ block)

/-- The orientation is added unless it is the upright one. -/
def addedItems (orientation : Nat) (block : ByteString) : List ByteString :=
  if orientation = 1 then [] else [orientationBytes block]

/-- The rewriter keeps what it should and adds the orientation. Fill bytes do not count. -/
def JpegStream.RewritesExactly (stream : JpegStream) (orientation : Nat) : Prop :=
  ∃ block text, HoldsOnlyOrientation block orientation ∧
    rewriteJpegMetadata stream.bytes orientation = .ok ([0xff, 0xd8] ++ text) ∧
    Spelled 0xff (addedItems orientation block ++ stream.kept) text

def JpegStream.scanned (stream : JpegStream) : ByteString :=
  stream.first.start ++ piecesBytes (stream.later.flatMap StreamScan.pieces) ++
    List.replicate stream.endFill 0xff

/-- Nothing is to be left out after the start of the first scan, and nothing there looks like the
end. -/
structure JpegStream.IsPlain (stream : JpegStream) : Prop where
  no_metadata : ∀ scan ∈ stream.later, ∀ s ∈ scan.segments, s.segment.isMetadata = false
  no_end : ¬ jpegEnd <:+: stream.scanned

section Pieces

variable {stream : JpegStream} {scan : StreamScan} {p q : PaddedItem UInt8} {a b : Segment}
  {text rest : ByteString}

theorem Segment.kept_iff (s : Segment) : s.isKept = !s.isMetadata := by
  have hComment : isDecodingHint jpegComment s.payload = false := by
    simp [isDecodingHint, jpegComment, jpegApp0, jpegApp2, jpegApp14]
  rw [isKept, keepsSegment, isMetadata]
  by_cases h : s.marker = jpegComment
  · rw [h, hComment]
    simp
  · simp [h]

theorem Segment.metadata_marker (s : Segment) (h : s.isMetadata = true) : 0xe0 ≤ s.marker := by
  rw [isMetadata, Bool.or_eq_true, Bool.and_eq_true, decide_eq_true_eq] at h
  obtain h | ⟨h, -⟩ := h
  · rw [h]
    decide
  · rw [isApplication, Bool.and_eq_true, decide_eq_true_eq] at h
    exact h.1

theorem Segment.eq_of_prefix (h : a.bytes ++ text <+: b.bytes ++ rest) :
    a.marker = b.marker ∧ a.payload = b.payload := by
  obtain ⟨more, h⟩ := h
  have hMarker := congrArg (fun x : ByteString => x[1]?) h
  have hLength := congrArg (fun x : ByteString => readUInt16BE (x.drop 2)) h
  have hPayload := congrArg (fun x : ByteString => x.drop 4) h
  replace hLength : readUInt16BE (uint16BE (a.payload.length + 2) ++ (a.payload ++ text ++ more)) =
      readUInt16BE (uint16BE (b.payload.length + 2) ++ (b.payload ++ rest)) := by
        simpa [bytes] using hLength
  rw [readUInt16BE_uint16BE a.fits, readUInt16BE_uint16BE b.fits,
    Nat.add_right_cancel_iff] at hLength
  refine ⟨by simpa [bytes] using hMarker, ?_⟩
  replace hPayload : a.payload ++ (text ++ more) = b.payload ++ rest := by
    simpa [bytes, uint16BE] using hPayload
  exact (List.append_inj hPayload hLength).1

theorem apart_of_marks {m n : UInt8} {x y : ByteString} (h : m ≠ n) :
    Apart (0xff :: m :: x) (0xff :: n :: y) := by
  intro text rest hPrefix
  exact h (List.cons_prefix_cons.mp (List.cons_prefix_cons.mp hPrefix).2).1

theorem mem_pieces (h : p ∈ stream.scanPieces) :
    (∃ s : StreamSegment, p = s.piece) ∨ ∃ (m : UInt8) (tail : ByteString),
      p.item = 0xff :: m :: tail ∧ m < 0xe0 ∧
      p.kept = true := by
  have hScan : ∀ scan : StreamScan, p ∈ scan.pieces → (∃ s : StreamSegment, p = s.piece) ∨
      ∃ (m : UInt8) (tail : ByteString), p.item = 0xff :: m :: tail ∧ m < 0xe0 ∧ p.kept = true := by
    intro scan hp
    obtain hp | hp := List.mem_append.mp hp
    · obtain ⟨s, -, rfl⟩ := List.mem_map.mp hp
      exact .inl ⟨s, rfl⟩
    · obtain rfl := List.mem_singleton.mp hp
      exact .inr ⟨jpegScan, _, rfl, by decide, rfl⟩
  obtain hp | hp := List.mem_append.mp h
  · obtain rfl | hp := List.mem_cons.mp hp
    · exact .inr ⟨jpegScan, _, rfl, by decide, rfl⟩
    · obtain ⟨scan, -, hp⟩ := List.mem_flatMap.mp hp
      exact hScan _ hp
  · obtain rfl := List.mem_singleton.mp hp
    exact .inr ⟨0xd9, [], rfl, by decide, rfl⟩

theorem marked_piece (h : p ∈ stream.scanPieces) :
    Marked 0xff p.item := by
  obtain ⟨s, rfl⟩ | ⟨m, tail, hItem, hMark, -⟩ := mem_pieces h
  · exact ⟨s.segment.marker, _, rfl, s.segment.not_fill⟩
  · refine ⟨m, tail, hItem, ?_⟩
    rintro rfl
    exact absurd hMark (by decide)

theorem apart_pieces (hp : p ∈ stream.scanPieces)
    (hq : q ∈ stream.scanPieces)
    (hKept : p.kept = true) (hLeft : q.kept = false) : Apart p.item q.item := by
  obtain ⟨t, rfl⟩ | ⟨-, -, -, -, hq⟩ := mem_pieces hq
  · have hMetadata : t.segment.isMetadata = true := by simpa [StreamSegment.piece] using hLeft
    obtain ⟨s, rfl⟩ | ⟨m, tail, hItem, hMark, -⟩ := mem_pieces hp
    · intro text rest hPrefix
      obtain ⟨hMarker, hPayload⟩ := Segment.eq_of_prefix hPrefix
      have hSame : s.segment.isMetadata = t.segment.isMetadata := by
        rw [Segment.isMetadata, Segment.isMetadata, hMarker, hPayload]
      rw [StreamSegment.piece, hSame, hMetadata] at hKept
      cases hKept
    · rw [hItem]
      refine apart_of_marks ?_
      rintro rfl
      exact absurd (t.segment.metadata_marker hMetadata) (UInt8.not_le.mpr hMark)
  · rw [hq] at hLeft
    cases hLeft

end Pieces

section Rewriting

variable {stream : JpegStream} {orientation : Nat} {inserted : List ByteString}
  {block text : ByteString}

theorem scanned_end (stream : JpegStream) :
    stream.scanned ++ jpegEnd = piecesBytes stream.scanPieces := by
  simp [JpegStream.scanned, JpegStream.scanPieces, piecesBytes, PaddedItem.text, padded,
    JpegStream.endPiece]

theorem stream_bytes (stream : JpegStream) : stream.bytes = [0xff, 0xd8] ++
    ((stream.first.segments.map StreamSegment.toFilledSegment).flatMap FilledSegment.bytes ++
      (List.replicate stream.first.fill 0xff ++
        (stream.scanned ++ jpegEnd ++ stream.trailing))) := by
  have hSegments : ∀ segments : List StreamSegment,
    (segments.map StreamSegment.piece).flatMap (PaddedItem.text 0xff) =
      (segments.map StreamSegment.toFilledSegment).flatMap FilledSegment.bytes := by
    intro segments
    rw [List.flatMap_map, List.flatMap_map]
    rfl
  rw [scanned_end]
  simp [JpegStream.bytes, JpegStream.pieces, piecesBytes, StreamScan.pieces, hSegments,
    JpegStream.scanPieces, PaddedItem.text, padded]

theorem kept_front (segments : List StreamSegment) :
    keptSegments (segments.map StreamSegment.toFilledSegment) =
      keptItems (segments.map StreamSegment.piece) := by
  induction segments with
  | nil => rfl
  | cons s segments ih =>
    have hSame : s.piece.kept = s.segment.isKept := s.segment.kept_iff.symm
    rw [keptSegments, keptItems] at ih ⊢
    simp only [List.map_cons, List.filter_cons, hSame]
    split
    · rw [List.map_cons, List.map_cons, ih]
      rfl
    · exact ih

theorem orientationSegment_added (h : exifOrientationBlock orientation = .ok block) :
    ∃ inserted, orientationSegment orientation = .ok inserted ∧
      inserted.flatten = (addedItems orientation block).flatten := by
  rw [orientationSegment, addedItems, h]
  split
  · exact ⟨[], rfl, rfl⟩
  · refine ⟨_, rfl, ?_⟩
    simp [orientationBytes]

/-- The rewriter cuts somewhere between the start of the first scan and the end of the stream. -/
theorem rewrite_stream (stream : JpegStream)
    (hBlock : exifOrientationBlock orientation = .ok block) :
    ∃ scan : ScanData, rewriteJpegMetadata stream.bytes orientation = .ok ([0xff, 0xd8] ++
      ((addedItems orientation block ++ keptItems
        (stream.first.segments.map StreamSegment.piece)).flatten ++ scan.bytes)) ∧
      scan.bytes <+: stream.scanned ++ jpegEnd := by
  obtain ⟨inserted, hInserted, hAdded⟩ := orientationSegment_added hBlock
  obtain ⟨last, hLast⟩ : ∃ last, indexOf jpegEnd (stream.scanned ++ jpegEnd ++ stream.trailing) =
    some last :=
    exists_indexOf rfl (by decide)
  obtain ⟨high, low, rest, hScan⟩ : ∃ high low rest, stream.scanned ++ jpegEnd ++ stream.trailing =
    0xff :: jpegScan :: high :: low :: rest := ⟨_, _, _, rfl⟩
  have hEarly : last ≤ stream.scanned.length := le_of_occurs hLast rfl (by decide)
  rw [hScan] at hLast
  obtain ⟨scan, trailing, hSplit, hTake⟩ := exists_scan hLast
  refine ⟨scan, ?_, ?_⟩
  · have hReading : Reading ((stream.first.segments.map StreamSegment.toFilledSegment).flatMap
      FilledSegment.bytes ++
        (List.replicate stream.first.fill 0xff ++ (stream.scanned ++ jpegEnd ++ stream.trailing)))
        (keptItems (stream.first.segments.map StreamSegment.piece) ++ [scan.bytes]) :=
      ⟨_, stream.first.fill, scan, trailing, by rw [hScan, hSplit], by rw [kept_front]⟩
    rw [stream_bytes, rewriteJpegMetadata_of_reading hReading rfl hInserted, hAdded]
    simp
  · rw [← hTake, ← hScan]
    have hCut : (stream.scanned ++ jpegEnd ++ stream.trailing).take (last + jpegEnd.length) =
        (stream.scanned ++ jpegEnd).take (last + jpegEnd.length) :=
      List.take_append_of_le_length (by rw [List.length_append]; omega)
    rw [hCut]
    exact List.take_prefix _ _

theorem kept_split (stream : JpegStream) :
    stream.kept = keptItems (stream.first.segments.map StreamSegment.piece) ++
      keptItems stream.scanPieces := by
  simp [JpegStream.kept, JpegStream.pieces, JpegStream.scanPieces, keptItems, StreamScan.pieces,
    List.filter_cons]

theorem marked_front {block : ByteString} :
    ∀ item ∈ addedItems orientation block ++ keptItems
      (stream.first.segments.map StreamSegment.piece), Marked 0xff item := by
  intro item hItem
  obtain hItem | hItem := List.mem_append.mp hItem
  · rw [addedItems] at hItem
    split at hItem
    · cases hItem
    · obtain rfl := List.mem_singleton.mp hItem
      exact ⟨jpegApp1, _, rfl, by decide⟩
  · obtain ⟨p, hp, rfl⟩ := List.mem_map.mp hItem
    obtain ⟨s, -, rfl⟩ := List.mem_map.mp (List.mem_filter.mp hp).1
    exact ⟨s.segment.marker, _, rfl, s.segment.not_fill⟩

/-- A cut that leaves exactly what it should is at the end of the stream, and nothing before it had
to go. -/
theorem isPlain_of_spelled {scan : ScanData}
    (h : Spelled 0xff (keptItems stream.scanPieces) scan.bytes)
    (hPrefix : scan.bytes <+: stream.scanned ++ jpegEnd) : stream.IsPlain := by
  rw [scanned_end] at hPrefix
  obtain ⟨hKept, hText⟩ := h.covers (fun p hp => marked_piece hp) rfl
    (fun p hp hpKept q hq => apart_pieces hp (List.mem_append_left _ hq) hpKept) hPrefix
  have hText : scan.bytes = stream.scanned ++ jpegEnd := hText.trans (scanned_end stream).symm
  constructor
  · intro scan hScan s hs
    have hPiece : s.piece ∈ scan.pieces := List.mem_append_left _ (List.mem_map.mpr ⟨s, hs, rfl⟩)
    have hLeft :=
      hKept s.piece (List.mem_cons_of_mem _ (List.mem_flatMap.mpr ⟨scan, hScan, hPiece⟩))
    simpa [StreamSegment.piece] using hLeft
  · rintro ⟨before, after, hOccurs⟩
    have hBody : [0xff, jpegScan] ++ scan.body = stream.scanned := List.append_cancel_right hText
    have hEnds := scan.ends
    rw [hBody] at hEnds
    have hSplit : stream.scanned ++ jpegEnd = before ++ jpegEnd ++ (after ++ jpegEnd) := by
      rw [← hOccurs]
      simp
    have hEarly := le_of_occurs hEnds hSplit (by decide)
    rw [← hOccurs] at hEarly
    simp only [jpegEnd, List.length_append, List.length_cons] at hEarly
    omega

theorem scan_of_isPlain {scan : ScanData} (h : stream.IsPlain)
    (hPrefix : scan.bytes <+: stream.scanned ++ jpegEnd) :
    scan.bytes = stream.scanned ++ jpegEnd := by
  obtain ⟨more, hMore⟩ := hPrefix
  obtain rfl | ⟨front, last, rfl⟩ := List.eq_nil_or_concat more
  · rw [← hMore, List.append_nil]
  · exfalso
    have hBody : [0xff, jpegScan] ++ scan.body ++ jpegEnd ++ front = stream.scanned ++ [0xff] := by
      have hWhole : ([0xff, jpegScan] ++ scan.body ++ jpegEnd ++ front) ++ [last] =
        (stream.scanned ++ [0xff]) ++ [0xd9] := by
        rw [List.append_assoc, ← ScanData.bytes.eq_def, ← List.concat_eq_append, hMore]
        simp [jpegEnd]
      exact (List.append_inj' hWhole rfl).1
    obtain rfl | ⟨front, last, rfl⟩ := List.eq_nil_or_concat front
    · have hLast : ([0xff, jpegScan] ++ scan.body ++ [0xff]) ++ [0xd9] =
        stream.scanned ++ [0xff] := by
        rw [← hBody]
        simp [jpegEnd]
      exact absurd (List.append_inj' hLast rfl).2 (by decide)
    · rw [List.concat_eq_append, ← List.append_assoc] at hBody
      exact h.no_end ⟨_, front, (List.append_inj' hBody rfl).1⟩

theorem kept_of_isPlain (h : stream.IsPlain) : ∀ p ∈ stream.scanPieces, p.kept = true := by
  intro p hp
  obtain hp | hp := List.mem_append.mp hp
  · obtain rfl | hp := List.mem_cons.mp hp
    · rfl
    · obtain ⟨scan, hScan, hp⟩ := List.mem_flatMap.mp hp
      obtain hp | hp := List.mem_append.mp hp
      · obtain ⟨s, hs, rfl⟩ := List.mem_map.mp hp
        rw [StreamSegment.piece, h.no_metadata scan hScan s hs]
        rfl
      · obtain rfl := List.mem_singleton.mp hp
        rfl
  · obtain rfl := List.mem_singleton.mp hp
    rfl

theorem isPlain_of_rewrites (hOrientation : orientation < 65536)
    (h : stream.RewritesExactly orientation) : stream.IsPlain := by
  obtain ⟨block, text, hBlock, hText, hSpelled⟩ := h
  obtain ⟨scan, hRewrite, hPrefix⟩ :=
    rewrite_stream stream ((exifOrientationBlock_iff hOrientation).mpr hBlock)
  rw [hRewrite, Except.ok.injEq, List.append_cancel_left_eq] at hText
  rw [← hText, kept_split, ← List.append_assoc] at hSpelled
  exact isPlain_of_spelled (hSpelled.of_flatten marked_front) hPrefix

/-- Rewriting a stream keeps exactly what it should if and only if, after the start of the first
scan, no segment has to go and nothing looks like the end of the stream. -/
theorem rewrites_exactly_iff (stream : JpegStream) (orientation : Nat) (h : orientation < 65536) :
    stream.RewritesExactly orientation ↔ stream.IsPlain := by
  constructor
  · exact isPlain_of_rewrites h
  · intro hPlain
    obtain ⟨block, hBlock, -⟩ := exifOrientationBlock_ok h
    obtain ⟨scan, hRewrite, hPrefix⟩ := rewrite_stream stream hBlock
    refine ⟨block, _, (exifOrientationBlock_iff h).mp hBlock, hRewrite, ?_⟩
    rw [kept_split, ← List.append_assoc, scan_of_isPlain hPlain hPrefix, scanned_end]
    exact (spelled_all (kept_of_isPlain hPlain)).flatten_append

def twoScans (between : List StreamSegment) : JpegStream where
  first := ⟨[], 0, [1, 1, 0, 0, 63, 0], by decide, [.literal 5 (by decide), .stuffed]⟩
  later := [⟨between, 0, [1, 2, 0, 0, 63, 0], by decide, [.restart 0 1]⟩]
  endFill := 0
  trailing := []

def tableSegment (payload : ByteString) (h : payload.length + 2 < 65536) : StreamSegment where
  fill := 1
  segment := ⟨0xc4, payload, by decide, by decide, h⟩
  legal := show introducesSegment 0xc4 = true by decide

def commentSegment : StreamSegment where
  fill := 0
  segment := ⟨jpegComment, [7], by decide, by decide, by decide⟩
  legal := by decide

theorem rewrites_exactly_iff_tables :
    (twoScans [tableSegment [0, 1, 2] (by decide)]).RewritesExactly 6 := by
  refine (rewrites_exactly_iff _ 6 (by decide)).mpr ⟨?_, by decide⟩
  intro scan hScan s hs
  obtain rfl := List.mem_singleton.mp hScan
  obtain rfl := List.mem_singleton.mp hs
  decide

/-- A comment between two scans stays, and the end marker among the bytes of a table cuts the second
scan off. -/
theorem rewrites_inexactly : ¬ (twoScans [commentSegment]).RewritesExactly 1 ∧
    ¬ (twoScans [tableSegment [0, 0xff, 0xd9] (by decide)]).RewritesExactly 1 := by
  constructor
  · intro h
    have hComment :=
      (isPlain_of_rewrites (by decide) h).no_metadata _ (List.mem_singleton_self _) commentSegment
      (List.mem_singleton_self _)
    exact absurd hComment (by decide)
  · intro h
    exact (isPlain_of_rewrites (by decide) h).no_end (by decide)

end Rewriting

end Pixaeron.Worker
