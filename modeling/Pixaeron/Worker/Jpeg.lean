import Pixaeron.Bytes.Fields

/-! # JPEG metadata

The rewriter walks the segments of a JPEG file up to the first scan, leaves out what only
describes the picture, and copies everything from the scan up to an end marker.
-/

namespace Pixaeron.Worker

open Bytes

def jpegApp0 : UInt8 := 0xe0

def jpegApp1 : UInt8 := 0xe1

def jpegApp2 : UInt8 := 0xe2

def jpegApp14 : UInt8 := 0xee

def jpegApp15 : UInt8 := 0xef

def jpegComment : UInt8 := 0xfe

def jpegScan : UInt8 := 0xda

def jpegFill : UInt8 := 0xff

def jpegEnd : ByteString := [0xff, 0xd9]

def iccPrefix : ByteString := latin1 "ICC_PROFILE" ++ [0]

def adobePrefix : ByteString := latin1 "Adobe"

def exifPrefix : ByteString := latin1 "Exif" ++ [0, 0]

def jfifPrefix : ByteString := latin1 "JFIF" ++ [0]

def jfifFixedLength : Nat := 14

def jfifThumbAt : Nat := 12

def exifOrientationTag : Nat := 0x0112

/-- `writeUInt16LE` throws when the number does not fit. -/
def exifOrientationBlock (orientation : Nat) : Except String ByteString :=
  if orientation < 65536 then
    .ok (latin1 "II" ++ uint16LE 42 ++ uint32LE 8 ++ uint16LE 1 ++ uint16LE exifOrientationTag ++
      uint16LE 3 ++
      uint32LE 1 ++ uint16LE orientation ++ [0, 0] ++ uint32LE 0)
  else .error "value out of range"

/-- A thumbnail's size beyond the payload reads as `undefined`, and no length equals what comes of
it. -/
def isCanonicalJfif (payload : ByteString) : Bool :=
  payload.take jfifPrefix.length = jfifPrefix &&
  match payload[jfifThumbAt]?, payload[jfifThumbAt + 1]? with
  | some width, some height => payload.length = jfifFixedLength + 3 * width.toNat * height.toNat
  | _, _ => false

def isApplication (marker : UInt8) : Bool := jpegApp0 ≤ marker && marker ≤ jpegApp15

def isDecodingHint (marker : UInt8) (payload : ByteString) : Bool :=
  (marker = jpegApp0 && isCanonicalJfif payload) ||
  (marker = jpegApp2 && payload.take iccPrefix.length = iccPrefix) ||
  (marker = jpegApp14 && payload.take adobePrefix.length = adobePrefix)

def keepsSegment (marker : UInt8) (payload : ByteString) : Bool :=
  (!isApplication marker && marker ≠ jpegComment) || isDecodingHint marker payload

/-- The loop from the bytes at its offset on, with what it keeps. Every round takes at least one
byte, so as many rounds as there are bytes are enough. -/
def walkSegments : Nat → ByteString → Except String (List ByteString)
  | rounds + 1, first :: marker :: high :: low :: rest =>
    if first ≠ 0xff then .error "JPEG marker expected"
    else if marker = jpegFill then walkSegments rounds (marker :: high :: low :: rest)
    else if marker = jpegScan then
      match indexOf jpegEnd (first :: marker :: high :: low :: rest) with
      | none => .error "JPEG end marker not found"
      | some last => .ok [(first :: marker :: high :: low :: rest).take (last + jpegEnd.length)]
    else
      let segment :=
        (first :: marker :: high :: low :: rest).take (2 + readUInt16BE (high :: low :: rest))
      (walkSegments rounds ((first :: marker :: high :: low :: rest).drop segment.length)).map
        fun kept => if keepsSegment marker (segment.drop 4) then segment :: kept else kept
  | _, _ => .error "JPEG scan not found"

/-- The segment that carries the orientation, if there is one to carry. -/
def orientationSegment (orientation : Nat) : Except String (List ByteString) :=
  if orientation = 1 then .ok [] else
    (exifOrientationBlock orientation).map fun block =>
      [[0xff, jpegApp1] ++ uint16BE ((exifPrefix ++ block).length + 2), exifPrefix ++ block]

def rewriteJpegMetadata (input : ByteString) (orientation : Nat) : Except String ByteString := do
  let inserted ← orientationSegment orientation
  let kept ← walkSegments input.length (input.drop 2)
  pure (([input.take 2] ++ inserted ++ kept).flatten)

/-- `carriesOnlyAllowedTypes` for JPEG files. -/
def carriesOnlyAllowedJpeg (input : ByteString) : Except String Bool := do
  let rewritten ← rewriteJpegMetadata input 1
  pure (rewritten = input)

end Pixaeron.Worker
