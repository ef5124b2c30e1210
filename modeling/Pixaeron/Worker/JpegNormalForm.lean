import Pixaeron.Bytes.Tiff
import Pixaeron.Worker.JpegSegments

/-! # The normal form of a JPEG file

A rewritten file is its own rewrite: it consists of the first two bytes, the orientation, the kept
segments and the scan, and nothing that another rewrite would take for something else.
-/

namespace Pixaeron.Worker

open Bytes

/-- The block says that the orientation is this one, and nothing else. -/
def HoldsOnlyOrientation (block : ByteString) (orientation : Nat) : Prop :=
  HoldsOnlyEntry block ⟨0x0112, 3, 1, orientation⟩

section NormalForm

variable {x y rest head block : ByteString} {inserted kept : List ByteString}
  {orientation o p : Nat}

theorem exifOrientationBlock_ok (h : orientation < 65536) :
    ∃ block, exifOrientationBlock orientation = .ok block ∧ block.length = 26 := by
  rw [exifOrientationBlock, if_pos h]
  exact ⟨_, rfl, rfl⟩

theorem exifOrientationBlock_iff (h : orientation < 65536) :
    exifOrientationBlock orientation = .ok block ↔ HoldsOnlyOrientation block orientation := by
  have hFits : TiffEntry.Fits ⟨0x0112, 3, 1, orientation⟩ :=
    ⟨show 0x0112 < 65536 by decide, show 3 < 65536 by decide, show 1 < 4294967296 by decide,
      show orientation < 4294967296 by omega⟩
  have hLow : uint32LE orientation = uint16LE orientation ++ [0, 0] := by
    rw [uint32LE, uint16LE, Nat.div_eq_of_lt (show orientation < 65536 from h),
      Nat.div_eq_of_lt (show orientation < 16777216 by omega)]
    rfl
  rw [HoldsOnlyOrientation, holdsOnlyEntry_iff hFits, exifOrientationBlock, if_pos h,
    Except.ok.injEq, eq_comm, TiffEntry.bytes, exifOrientationTag, hLow]
  simp only [List.append_assoc]

def orientationApp1 (block : ByteString) (h : block.length = 26) : Segment where
  marker := jpegApp1
  payload := exifPrefix ++ block
  not_fill := by decide
  not_scan := by decide
  fits := by
    have hPrefix : exifPrefix.length = 6 := by decide
    rw [List.length_append]
    omega

theorem not_kept_orientation (h : block.length = 26) :
    (orientationApp1 block h).isKept = false := by
  rw [Segment.isKept, orientationApp1, keepsSegment, isDecodingHint, isApplication]
  simp [jpegApp0, jpegApp1, jpegApp2, jpegApp14, jpegApp15, jpegComment]

theorem exists_orientation (h : orientation < 65536) :
    ∃ (inserted : List ByteString) (segments : List FilledSegment),
      orientationSegment orientation = .ok inserted ∧
      inserted.flatten = segments.flatMap FilledSegment.bytes ∧ keptSegments segments = [] ∧
      (orientation = 1 → inserted = []) := by
  by_cases hUpright : orientation = 1
  · exact ⟨[], [], by rw [orientationSegment, if_pos hUpright], rfl, rfl, fun _ => rfl⟩
  · obtain ⟨block, hBlock, hLength⟩ := exifOrientationBlock_ok h
    refine ⟨_, [⟨0, orientationApp1 block hLength⟩],
      by rw [orientationSegment, if_neg hUpright, hBlock]; rfl, ?_, ?_, ?_⟩
    · simp only [List.flatten_cons, List.flatten_nil, List.append_nil, List.flatMap_cons,
        List.flatMap_nil]
      rfl
    · rw [keptSegments, List.map_cons, List.map_nil, List.filter_cons, not_kept_orientation hLength]
      rfl
    · exact fun h => absurd h hUpright

theorem walked_of_reading (r : Reading rest kept) : Walked rest (.ok kept) := by
  obtain ⟨segments, fill, scan, trailing, rfl, rfl⟩ := r
  exact walked_of_segments segments fill scan

theorem rewriteJpegMetadata_of_reading (r : Reading rest kept) (hHead : head.length = 2)
    (hInserted : orientationSegment orientation = .ok inserted) :
    rewriteJpegMetadata (head ++ rest) orientation =
      .ok (head ++ inserted.flatten ++ kept.flatten) := by
  have hWalk : walkSegments (head ++ rest).length rest = .ok kept :=
    walked_of_reading r _ (by rw [List.length_append]; omega)
  rw [rewriteJpegMetadata, hInserted, List.drop_left' hHead, List.take_left' hHead, hWalk]
  simp [bind, Except.bind, pure, Except.pure]

theorem reading_of_rewrite (h : rewriteJpegMetadata x orientation = .ok y) :
    ∃ head rest kept inserted, x = head ++ rest ∧ head.length = 2 ∧ Nonempty (Reading rest kept) ∧
      orientationSegment orientation = .ok inserted ∧
      y = head ++ inserted.flatten ++ kept.flatten := by
  rw [rewriteJpegMetadata] at h
  cases hInserted : orientationSegment orientation with
  | error e => rw [hInserted] at h; cases h
  | ok inserted =>
    cases hWalk : walkSegments x.length (x.drop 2) with
    | error e => rw [hInserted, hWalk] at h; cases h
    | ok kept =>
      rw [hInserted, hWalk] at h
      have hLong : 2 ≤ x.length := by
        by_contra hShort
        rw [List.drop_eq_nil_of_le (by omega)] at hWalk
        exact walkSegments_nil hWalk
      refine ⟨x.take 2, x.drop 2, kept, inserted, (List.take_append_drop 2 x).symm, ?_,
        reading_of_walk hWalk, rfl, ?_⟩
      · rw [List.length_take]
        omega
      · cases h
        simp

/-- What is kept of a file reads as a file again, behind any segments that are left out. -/
theorem reading_kept (r : Reading rest kept) {dropped : List FilledSegment}
    (h : keptSegments dropped = []) :
    Nonempty (Reading (dropped.flatMap FilledSegment.bytes ++ kept.flatten) kept) := by
  obtain ⟨segments, fill, scan, trailing, rfl, rfl⟩ := r
  have hPlain : ∀ ss : List Segment, (ss.map (FilledSegment.mk 0)).flatMap FilledSegment.bytes =
      (ss.map Segment.bytes).flatten := by
    intro ss
    induction ss with
    | nil => rfl
    | cons s ss ih =>
      rw [List.map_cons, List.flatMap_cons, ih]
      rfl
  have hKept : ∀ ss : List Segment, keptSegments (ss.map (FilledSegment.mk 0)) =
    (ss.filter Segment.isKept).map Segment.bytes := by
    intro ss
    rw [keptSegments, List.map_map, show FilledSegment.segment ∘ FilledSegment.mk 0 = id from rfl,
      List.map_id]
  refine ⟨dropped ++ ((segments.map FilledSegment.segment).filter Segment.isKept).map
    (FilledSegment.mk 0), 0, scan, [], ?_, ?_⟩
  · rw [List.flatMap_append, hPlain, List.flatten_append, List.append_assoc]
    simp [keptSegments]
  · have hSplit : ∀ a b, keptSegments (a ++ b) = keptSegments a ++ keptSegments b := by
      intro a b
      rw [keptSegments, List.map_append, List.filter_append, List.map_append]
      rfl
    rw [hSplit, h, hKept, List.filter_filter]
    simp [keptSegments]

theorem rewrite_rewritten (ho : o < 65536) (hp : p < 65536) (h : rewriteJpegMetadata x o = .ok y) :
    rewriteJpegMetadata y p = rewriteJpegMetadata x p := by
  obtain ⟨head, rest, kept, inserted, rfl, hHead, ⟨r⟩, hInserted, rfl⟩ := reading_of_rewrite h
  obtain ⟨inserted', dropped, hInserted', hDropped, hNone, -⟩ := exists_orientation ho
  rw [hInserted] at hInserted'
  cases hInserted'
  obtain ⟨later, -, hLater, -⟩ := exists_orientation hp
  obtain ⟨r'⟩ := reading_kept r hNone
  rw [rewriteJpegMetadata_of_reading r hHead hLater, List.append_assoc, hDropped,
    rewriteJpegMetadata_of_reading r' hHead hLater]

theorem length_kept_le (r : Reading rest kept) : kept.flatten.length ≤ rest.length := by
  obtain ⟨segments, fill, scan, trailing, rfl, rfl⟩ := r
  have hSegments : (keptSegments segments).flatten.length ≤
    (segments.flatMap FilledSegment.bytes).length := by
    induction segments with
    | nil => exact le_rfl
    | cons f segments ih =>
      have hBytes : f.bytes.length = f.fill + f.segment.bytes.length := by
        rw [FilledSegment.bytes, List.length_append, List.length_replicate]
      rw [keptSegments, List.map_cons, List.filter_cons, List.flatMap_cons,
        List.length_append, hBytes]
      split
      · rw [List.map_cons, List.flatten_cons, List.length_append]
        exact Nat.add_le_add (Nat.le_add_left _ _) ih
      · exact ih.trans (Nat.le_add_left _ _)
  simp only [List.flatten_append, List.length_append, List.flatten_cons, List.flatten_nil,
    List.length_nil]
  omega

theorem rewrites_of_rewrite (hp : p < 65536) (h : rewriteJpegMetadata x o = .ok y) :
    ∃ z, rewriteJpegMetadata x p = .ok z := by
  obtain ⟨head, rest, kept, -, rfl, hHead, ⟨r⟩, -, -⟩ := reading_of_rewrite h
  obtain ⟨inserted, -, hInserted, -⟩ := exists_orientation hp
  exact ⟨_, rewriteJpegMetadata_of_reading r hHead hInserted⟩

theorem length_upright_le (h : rewriteJpegMetadata x 1 = .ok y) : y.length ≤ x.length := by
  obtain ⟨head, rest, kept, inserted, rfl, -, ⟨r⟩, hInserted, rfl⟩ := reading_of_rewrite h
  rw [orientationSegment, if_pos rfl] at hInserted
  cases hInserted
  rw [List.flatten_nil, List.append_nil, List.length_append, List.length_append]
  exact Nat.add_le_add_left (length_kept_le r) _

theorem throws_of_throws (ho : o < 65536) (h : ∃ e, rewriteJpegMetadata x o = .error e) :
    ∃ e, rewriteJpegMetadata x p = .error e := by
  obtain ⟨e, hError⟩ := h
  cases hRewrite : rewriteJpegMetadata x p with
  | error e => exact ⟨e, rfl⟩
  | ok y =>
    obtain ⟨z, hz⟩ := rewrites_of_rewrite ho hRewrite
    rw [hError] at hz
    cases hz

/-- The laws of rewriting: what a file is rewritten to rewrites like the file, upright rewriting
only removes and leaves a file that passes the check, and the orientation does not decide about an
error. -/
theorem rewrite_normal_form (x : ByteString) (o p : Nat) (ho : o < 65536) (hp : p < 65536) :
    (∀ y, rewriteJpegMetadata x o = .ok y → rewriteJpegMetadata y o = .ok y ∧
      rewriteJpegMetadata y p = rewriteJpegMetadata x p) ∧
    (∀ y, rewriteJpegMetadata x 1 = .ok y →
      y.length ≤ x.length ∧ carriesOnlyAllowedJpeg y = .ok true) ∧
    ((∃ e, rewriteJpegMetadata x o = .error e) ↔ ∃ e, rewriteJpegMetadata x p = .error e) := by
  refine ⟨fun y hy => ⟨?_, ?_⟩, fun y hy => ⟨length_upright_le hy, ?_⟩, ?_, ?_⟩
  · rw [rewrite_rewritten ho ho hy, hy]
  · exact rewrite_rewritten ho hp hy
  · have hSame : rewriteJpegMetadata y 1 = .ok y := by
      rw [rewrite_rewritten (by decide) (by decide) hy, hy]
    rw [carriesOnlyAllowedJpeg, hSame]
    simp [bind, Except.bind, pure, Except.pure]
  · exact throws_of_throws ho
  · exact throws_of_throws hp

/-- A comment goes on either way, the orientation only on the way to an upright file. -/
theorem rewrite_normal_form_comment :
    rewriteJpegMetadata [0xff, 0xd8, 0xff, 0xff, 0xfe, 0, 3, 7, 0xff, 0xda, 0xff, 0xd9, 9] 1 =
      .ok [0xff, 0xd8, 0xff, 0xda, 0xff, 0xd9] ∧
    (∃ y, rewriteJpegMetadata [0xff, 0xd8, 0xff, 0xff, 0xfe, 0, 3, 7, 0xff, 0xda, 0xff, 0xd9,
      9] 6 = .ok y ∧
      rewriteJpegMetadata y 6 = .ok y ∧ rewriteJpegMetadata y 1 = .ok [0xff, 0xd8, 0xff, 0xda,
        0xff, 0xd9]) ∧
    carriesOnlyAllowedJpeg [0xff, 0xd8, 0xff, 0xda, 0xff, 0xd9] = .ok true := by
  have hUpright : rewriteJpegMetadata [0xff, 0xd8, 0xff, 0xff, 0xfe, 0, 3, 7, 0xff, 0xda, 0xff,
    0xd9, 9] 1 =
      .ok [0xff, 0xd8, 0xff, 0xda, 0xff, 0xd9] := by decide
  have hLaws :=
    rewrite_normal_form [0xff, 0xd8, 0xff, 0xff, 0xfe, 0, 3, 7, 0xff, 0xda, 0xff, 0xd9, 9] 6 1
    (by decide) (by decide)
  obtain ⟨y, hy⟩ := rewrites_of_rewrite (show 6 < 65536 by decide) hUpright
  obtain ⟨hSame, hLater⟩ := hLaws.1 y hy
  exact ⟨hUpright, ⟨y, hy, hSame, hLater.trans hUpright⟩, (hLaws.2.1 _ hUpright).2⟩

end NormalForm

end Pixaeron.Worker
