import Pixaeron.Worker.Jpeg

/-! # The segments of a JPEG file

What the rewriter's loop accepts, and what it keeps of it: segments with fill bytes before them,
then a scan that goes up to the first end marker after its start.
-/

namespace Pixaeron.Worker

open Bytes

structure Segment where
  marker : UInt8
  payload : ByteString
  not_fill : marker ≠ jpegFill
  not_scan : marker ≠ jpegScan
  fits : payload.length + 2 < 65536

/-- From the start of a scan to the first end marker. -/
structure ScanData where
  body : ByteString
  ends : indexOf jpegEnd ([0xff, jpegScan] ++ body ++ jpegEnd) =
    some ([0xff, jpegScan] ++ body).length

/-- A segment and the fill bytes before it. -/
structure FilledSegment where
  fill : Nat
  segment : Segment

namespace Segment

def bytes (s : Segment) : ByteString :=
  [0xff, s.marker] ++ uint16BE (s.payload.length + 2) ++ s.payload

def isKept (s : Segment) : Bool := keepsSegment s.marker s.payload

theorem length_bytes (s : Segment) : s.bytes.length = s.payload.length + 4 := by
  simp [bytes]
  omega

end Segment

def ScanData.bytes (scan : ScanData) : ByteString := [0xff, jpegScan] ++ scan.body ++ jpegEnd

def FilledSegment.bytes (f : FilledSegment) : ByteString :=
  List.replicate f.fill 0xff ++ f.segment.bytes

def keptSegments (segments : List FilledSegment) : List ByteString :=
  ((segments.map FilledSegment.segment).filter Segment.isKept).map Segment.bytes

/-- What the loop ends with, given enough rounds. -/
def Walked (rest : ByteString) (result : Except String (List ByteString)) : Prop :=
  ∀ rounds, rest.length ≤ rounds → walkSegments rounds rest = result

section Walks

variable {rest trailing : ByteString} {result : Except String (List ByteString)}
  {kept : List ByteString} {rounds : Nat}

/-- The bytes after a fill byte start a segment or a scan, or are more of them. -/
def Starts (rest : ByteString) : Prop := ∃ a b c tail, rest = 0xff :: a :: b :: c :: tail

theorem Segment.starts (s : Segment) : Starts (s.bytes ++ rest) :=
  ⟨s.marker, _, _, s.payload ++ rest, rfl⟩

theorem ScanData.starts (scan : ScanData) (rest : ByteString) : Starts (scan.bytes ++ rest) := by
  unfold Starts ScanData.bytes
  cases scan.body with
  | nil => exact ⟨jpegScan, 0xff, 0xd9, rest, rfl⟩
  | cons b body =>
    cases body with
    | nil => exact ⟨jpegScan, b, 0xff, 0xd9 :: rest, rfl⟩
    | cons c body => exact ⟨jpegScan, b, c, body ++ jpegEnd ++ rest, rfl⟩

theorem Starts.fill (h : Starts rest) (fill : Nat) : Starts (List.replicate fill 0xff ++ rest) := by
  induction fill with
  | zero => exact h
  | succ fill ih =>
    obtain ⟨a, b, c, tail, hRest⟩ := ih
    exact ⟨0xff, a, b, c :: tail, by rw [List.replicate_succ, List.cons_append, hRest]⟩

theorem Walked.fill (h : Walked rest result) (hStarts : Starts rest) :
    Walked (0xff :: rest) result := by
  intro rounds hRounds
  obtain ⟨a, b, c, tail, rfl⟩ := hStarts
  cases rounds with
  | zero => simp at hRounds
  | succ rounds =>
    rw [walkSegments, if_neg (by decide), if_pos (show (0xff : UInt8) = jpegFill from rfl)]
    exact h rounds (by simpa using hRounds)

theorem Walked.fills (h : Walked rest result) (hStarts : Starts rest) (fill : Nat) :
    Walked (List.replicate fill 0xff ++ rest) result := by
  induction fill with
  | zero => exact h
  | succ fill ih => exact ih.fill (hStarts.fill fill)

theorem Walked.segment (h : Walked rest result) (s : Segment) :
    Walked (s.bytes ++ rest) (result.map fun kept =>
      if s.isKept then s.bytes :: kept else kept) := by
  intro rounds hRounds
  cases rounds with
  | zero => simp [Segment.bytes] at hRounds
  | succ rounds =>
    have hLength : readUInt16BE (uint16BE (s.payload.length + 2) ++ (s.payload ++ rest)) =
      s.payload.length + 2 :=
      readUInt16BE_uint16BE s.fits
    have hSegment : (s.bytes ++ rest).take (2 + (s.payload.length + 2)) = s.bytes := by
      rw [List.take_left' (by rw [Segment.length_bytes]; omega)]
    have hRest : (s.bytes ++ rest).drop s.bytes.length = rest := List.drop_left
    have hPayload : s.bytes.drop 4 = s.payload := rfl
    have hShorter : rest.length ≤ rounds := by
      rw [List.length_append, Segment.length_bytes] at hRounds
      omega
    have hUnfold : walkSegments (rounds + 1) (s.bytes ++ rest) =
        (walkSegments rounds ((s.bytes ++ rest).drop
          ((s.bytes ++ rest).take (2 + readUInt16BE
            (uint16BE (s.payload.length + 2) ++ (s.payload ++ rest)))).length)).map
        fun kept => if keepsSegment s.marker (((s.bytes ++ rest).take
            (2 + readUInt16BE (uint16BE (s.payload.length + 2) ++ (s.payload ++ rest)))).drop
              4) then
          (s.bytes ++ rest).take (2 + readUInt16BE
            (uint16BE (s.payload.length + 2) ++ (s.payload ++ rest))) :: kept
          else kept := by
      show walkSegments (rounds + 1) (0xff :: s.marker :: _ :: _ :: (s.payload ++ rest)) = _
      rw [walkSegments, if_neg (by decide), if_neg s.not_fill, if_neg s.not_scan]
      rfl
    rw [hUnfold, hLength, hSegment, hRest, hPayload, h rounds hShorter]
    rfl

theorem walked_scan (scan : ScanData) : Walked (scan.bytes ++ trailing) (.ok [scan.bytes]) := by
  intro rounds hRounds
  have hEnd : indexOf jpegEnd (scan.bytes ++ trailing) =
    some ([0xff, jpegScan] ++ scan.body).length := by
    have hPlain : indexOf jpegEnd ([0xff, jpegScan] ++ scan.body ++ jpegEnd ++ []) =
        some ([0xff, jpegScan] ++ scan.body).length := by rw [List.append_nil, scan.ends]
    exact indexOf_append (by decide) hPlain
  obtain ⟨a, b, c, tail, hStarts⟩ := scan.starts trailing
  have hMarker : a = jpegScan := by
    have hSecond := congrArg (fun x : ByteString => x[1]?) hStarts
    simpa [ScanData.bytes] using hSecond.symm
  have hTake : (scan.bytes ++ trailing).take
    (([0xff, jpegScan] ++ scan.body).length + jpegEnd.length) = scan.bytes :=
    List.take_left' (by simp [ScanData.bytes, jpegEnd])
  cases rounds with
  | zero => rw [hStarts] at hRounds; simp at hRounds
  | succ rounds =>
    rw [hStarts, hMarker] at hEnd hTake ⊢
    rw [walkSegments, if_neg (by decide), if_neg (by decide),
      if_pos (show jpegScan = jpegScan from rfl), hEnd]
    exact congrArg (fun x => Except.ok [x]) hTake

theorem walked_of_segments (segments : List FilledSegment) (fill : Nat) (scan : ScanData) :
    Walked (segments.flatMap FilledSegment.bytes ++
      (List.replicate fill 0xff ++ (scan.bytes ++ trailing)))
      (.ok (keptSegments segments ++ [scan.bytes])) := by
  induction segments with
  | nil => exact (walked_scan scan).fills (scan.starts trailing) fill
  | cons f segments ih =>
    rw [List.flatMap_cons, FilledSegment.bytes, List.append_assoc, List.append_assoc]
    have hSegment := ih.segment f.segment
    have hFilled := hSegment.fills f.segment.starts f.fill
    refine fun rounds hRounds => (hFilled rounds hRounds).trans ?_
    unfold keptSegments
    rw [List.map_cons, List.filter_cons]
    cases f.segment.isKept with
    | true => rfl
    | false => rfl

theorem walkSegments_stuck {b : UInt8} (h : b ≠ 0xff) :
    walkSegments rounds (b :: rest) ≠ .ok kept := by
  cases rounds with
  | zero => simp [walkSegments]
  | succ rounds =>
    match rest with
    | [] => simp [walkSegments]
    | [_] => simp [walkSegments]
    | [_, _] => simp [walkSegments]
    | _ :: _ :: _ :: _ => simp [walkSegments, h]

theorem walkSegments_nil : walkSegments rounds [] ≠ .ok kept := by
  cases rounds <;> simp [walkSegments]

theorem exists_scan {high low : UInt8} {last : Nat}
    (h : indexOf jpegEnd (0xff :: jpegScan :: high :: low :: rest) = some last) :
    ∃ (scan : ScanData) (trailing : ByteString),
      0xff :: jpegScan :: high :: low :: rest = scan.bytes ++ trailing ∧
      (0xff :: jpegScan :: high :: low :: rest).take (last + jpegEnd.length) = scan.bytes := by
  obtain ⟨before, trailing, hSplit, hLast⟩ := indexOf_eq_some h
  have hBefore : ∃ body, before = [0xff, jpegScan] ++ body := by
    match before with
    | [] =>
      have hSecond := congrArg (fun x : ByteString => x[1]?) hSplit
      exact absurd hSecond (by simp [jpegEnd, jpegScan])
    | [b] =>
      have hSecond := congrArg (fun x : ByteString => x[1]?) hSplit
      exact absurd hSecond (by simp [jpegEnd, jpegScan])
    | b :: c :: body =>
      have hFirst := congrArg (fun x : ByteString => x[0]?) hSplit
      have hSecond := congrArg (fun x : ByteString => x[1]?) hSplit
      simp only [List.getElem?_cons_zero, List.getElem?_cons_succ, List.cons_append,
        Option.some.injEq] at hFirst hSecond
      exact ⟨body, by rw [← hFirst, ← hSecond]; rfl⟩
  obtain ⟨body, rfl⟩ := hBefore
  have hEnds : indexOf jpegEnd ([0xff, jpegScan] ++ body ++ jpegEnd) =
    some ([0xff, jpegScan] ++ body).length := by
    rw [hSplit, ← hLast] at h
    have hShort : indexOf jpegEnd ([0xff, jpegScan] ++ body ++ jpegEnd ++ []) =
      some ([0xff, jpegScan] ++ body).length :=
      indexOf_append (by decide) h
    rwa [List.append_nil] at hShort
  refine ⟨⟨body, hEnds⟩, trailing, hSplit, ?_⟩
  rw [hSplit]
  exact List.take_left' (by rw [← hLast]; exact List.length_append)

/-- What is kept of a file read to the end, and what the file looks like. -/
structure Reading (rest : ByteString) (kept : List ByteString) where
  segments : List FilledSegment
  fill : Nat
  scan : ScanData
  trailing : ByteString
  spelled : rest = segments.flatMap FilledSegment.bytes ++
    (List.replicate fill 0xff ++ (scan.bytes ++ trailing))
  keeps : kept = keptSegments segments ++ [scan.bytes]

theorem Reading.fill_cons (h : Nonempty (Reading rest kept)) :
    Nonempty (Reading (0xff :: rest) kept) := by
  obtain ⟨segments, fill, scan, trailing, rfl, rfl⟩ := h
  cases segments with
  | nil => exact ⟨[], fill + 1, scan, trailing, rfl, rfl⟩
  | cons f segments => exact ⟨⟨f.fill + 1, f.segment⟩ :: segments, fill, scan, trailing, rfl, rfl⟩

theorem Reading.segment_cons (h : Nonempty (Reading rest kept)) (s : Segment) :
    Nonempty (Reading (s.bytes ++ rest) (if s.isKept then s.bytes :: kept else kept)) := by
  obtain ⟨segments, fill, scan, trailing, rfl, rfl⟩ := h
  refine ⟨⟨0, s⟩ :: segments, fill, scan, trailing, ?_, ?_⟩
  · rw [List.flatMap_cons, List.append_assoc]
    rfl
  · rw [keptSegments, keptSegments, List.map_cons, List.filter_cons]
    cases s.isKept with
    | true => rfl
    | false => rfl

theorem exists_segment {marker high low : UInt8} (hFill : marker ≠ jpegFill)
    (hScan : marker ≠ jpegScan) (hLow : 2 ≤ high.toNat * 256 + low.toNat)
    (hHigh : high.toNat * 256 + low.toNat ≤ rest.length + 2) :
    ∃ (s : Segment) (after : ByteString), s.marker = marker ∧
      0xff :: marker :: high :: low :: rest = s.bytes ++ after ∧
      s.bytes.length = 2 + (high.toNat * 256 + low.toNat) := by
  obtain ⟨payload, after, rfl, hPayload⟩ : ∃ payload after, rest = payload ++ after ∧
      payload.length + 2 = high.toNat * 256 + low.toNat := by
    refine ⟨_, _, (List.take_append_drop (high.toNat * 256 + low.toNat - 2) rest).symm, ?_⟩
    rw [List.length_take]
    omega
  have hFits : payload.length + 2 < 65536 := by
    have := high.toNat_lt
    have := low.toNat_lt
    omega
  refine ⟨⟨marker, payload, hFill, hScan, hFits⟩, after, rfl, ?_, ?_⟩
  · rw [Segment.bytes, hPayload, uint16BE_read]
    rfl
  · rw [Segment.length_bytes, ← hPayload]
    exact Nat.add_comm payload.length 4 |>.trans (by omega)

/-- A length that does not count itself, or goes beyond the file, leaves no marker to read. -/
theorem fits_of_walk {marker high low : UInt8}
    (h : walkSegments rounds ((0xff :: marker :: high :: low :: rest).drop
      ((0xff :: marker :: high :: low :: rest).take (2 + (high.toNat * 256 + low.toNat))).length) =
      .ok kept) :
    2 ≤ high.toNat * 256 + low.toNat ∧ high.toNat * 256 + low.toNat ≤ rest.length + 2 := by
  rw [List.length_take] at h
  by_contra hNot
  rcases Nat.lt_or_ge (high.toNat * 256 + low.toNat) 2 with hShort | hLow
  · have hHigh : high = 0 := UInt8.toNat_inj.mp (show high.toNat = 0 by omega)
    subst hHigh
    rcases Nat.lt_or_ge low.toNat 1 with hZero | hOne
    · have hLow : low = 0 := UInt8.toNat_inj.mp (show low.toNat = 0 by omega)
      subst hLow
      exact walkSegments_stuck (by decide) h
    · have hLow : low = 1 := UInt8.toNat_inj.mp (show low.toNat = 1 by simp at hShort; omega)
      subst hLow
      exact walkSegments_stuck (by decide) h
  · have hLong : rest.length + 2 < high.toNat * 256 + low.toNat :=
      Nat.lt_of_not_le fun hHigh => hNot ⟨hLow, hHigh⟩
    rw [List.drop_eq_nil_of_le (by simp only [List.length_cons]; omega)] at h
    exact walkSegments_nil h

/-- The loop accepts nothing but segments and a scan after them. -/
theorem reading_of_walk (h : walkSegments rounds rest = .ok kept) :
    Nonempty (Reading rest kept) := by
  induction rounds generalizing rest kept with
  | zero => simp [walkSegments] at h
  | succ rounds ih =>
    match rest with
    | [] => exact absurd h walkSegments_nil
    | [_] => simp [walkSegments] at h
    | [_, _] => simp [walkSegments] at h
    | [_, _, _] => simp [walkSegments] at h
    | first :: marker :: high :: low :: tail =>
      rw [walkSegments] at h
      split_ifs at h with hFirst hFill hScan
      · rw [not_not.mp hFirst]
        rw [hFill] at h ⊢
        exact Reading.fill_cons (ih h)
      · rw [not_not.mp hFirst, hScan] at h ⊢
        split at h
        · cases h
        · next last hLast =>
          cases h
          obtain ⟨scan, trailing, hSplit, hTake⟩ := exists_scan hLast
          rw [hTake, hSplit]
          exact ⟨[], 0, scan, trailing, rfl, rfl⟩
      · rw [not_not.mp hFirst] at h ⊢
        dsimp only at h
        cases hWalk : walkSegments rounds ((0xff :: marker :: high :: low :: tail).drop
            ((0xff :: marker :: high :: low :: tail).take
              (2 + readUInt16BE (high :: low :: tail))).length) with
        | error e => rw [hWalk] at h; cases h
        | ok kept' =>
          rw [hWalk] at h
          obtain ⟨hLow, hHigh⟩ := fits_of_walk hWalk
          obtain ⟨s, after, rfl, hSplit, hLength⟩ := exists_segment hFill hScan hLow hHigh
          have hTake : (s.bytes ++ after).take (2 + readUInt16BE (high :: low :: tail)) = s.bytes :=
            List.take_left' hLength
          have hDrop : (s.bytes ++ after).drop s.bytes.length = after := List.drop_left
          rw [hSplit, hTake, hDrop] at hWalk
          rw [hSplit, hTake] at h
          cases h
          rw [hSplit]
          exact Reading.segment_cons (ih hWalk) s

end Walks

end Pixaeron.Worker
