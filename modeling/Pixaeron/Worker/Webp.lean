import Pixaeron.Worker.Jpeg

/-! # WebP metadata

A WebP file is a header of twelve bytes and chunks: a type, a length, a payload of that length, and
a byte of padding after an odd one. -/

namespace Pixaeron.Worker

open Bytes

def webpFeatures : ByteString := latin1 "VP8X"

def webpCleanChunks : List ByteString :=
  [latin1 "VP8 ", latin1 "VP8L", latin1 "VP8X", latin1 "ALPH", latin1 "ICCP"]

def webpImageChunks : List ByteString := [latin1 "VP8 ", latin1 "VP8L"]

def webpHeader : Nat := 12

def webpFeaturesLength : Nat := 10

def webpMetadataFlags : UInt8 := 0x0c

def webpExifFlag : UInt8 := 0x08

def webpFeaturesAt : Nat := 8

/-- The variables of the loop. `features` is the place of a chunk in `kept`. -/
structure WebpWalk where
  kept : List ByteString
  keptImage : Bool
  features : Option Nat

def clearMetadataFlags (chunk : ByteString) : ByteString :=
  chunk.modify webpFeaturesAt (· &&& ~~~webpMetadataFlags)

def setExifFlag (chunk : ByteString) : ByteString :=
  chunk.modify webpFeaturesAt (· ||| webpExifFlag)

def WebpWalk.add (walk : WebpWalk) (chunkType chunk : ByteString) : WebpWalk :=
  if webpCleanChunks.contains chunkType then
    { kept := walk.kept ++ [if chunkType = webpFeatures then clearMetadataFlags chunk else chunk]
      keptImage := walk.keptImage || webpImageChunks.contains chunkType
      features := if chunkType = webpFeatures then some walk.kept.length else walk.features }
  else walk

/-- The loop from the bytes at its offset on, with the bytes it leaves. It ends with `none` where
the input is returned at once. Every round takes at least eight bytes. -/
def walkWebp : Nat → ByteString → WebpWalk → Option (WebpWalk × ByteString)
  | 0, rest, walk => some (walk, rest)
  | rounds + 1, rest, walk =>
    if rest.length < 8 then some (walk, rest)
    else
      let chunkType := rest.take 4
      let length := readUInt32LE (rest.drop 4)
      let size := 8 + length + length % 2
      if rest.length < size then none
      else if chunkType = webpFeatures ∧ length ≠ webpFeaturesLength then none
      else walkWebp rounds (rest.drop size) (walk.add chunkType (rest.take size))

/-- The header with the size of what follows. `writeUInt32LE` throws when the number does not fit.
-/
def webpFile (input body : ByteString) : Except String ByteString :=
  if body.length + 4 < 4294967296 then
    .ok (input.take 4 ++ uint32LE (body.length + 4) ++ subarray input 8 webpHeader ++ body)
  else .error "value out of range"

/-- An input shorter than its header has no image to keep. -/
def stripWebpMetadata (input : ByteString) (orientation : Nat) : Except String ByteString :=
  match walkWebp input.length (input.drop webpHeader) ⟨[], false, none⟩ with
  | none => .ok input
  | some (walk, rest) =>
    if rest ≠ [] || !walk.keptImage then .ok input
    else if orientation ≠ 1 then
      match walk.features with
      | none => .ok input
      | some place => do
        let exif ← exifOrientationBlock orientation
        webpFile input (walk.kept.modify place setExifFlag ++
          [latin1 "EXIF" ++ uint32LE exif.length, exif]).flatten
    else webpFile input walk.kept.flatten

/-- The walk of `carriesOnlyAllowedTypes` over the chunks. A chunk that goes beyond the end takes
the offset beyond it. -/
def onlyCleanChunks : Nat → ByteString → Bool
  | 0, rest => rest = []
  | rounds + 1, rest =>
    if rest.length < 8 then rest = []
    else if !webpCleanChunks.contains (rest.take 4) then false
    else
      let length := readUInt32LE (rest.drop 4)
      if rest.take 4 = webpFeatures ∧ length ≠ webpFeaturesLength then false
      else
        let size := 8 + length + length % 2
        if rest.length < size then false else onlyCleanChunks rounds (rest.drop size)

/-- `carriesOnlyAllowedTypes` for WebP files. The length is read beyond the end, and throws, if
there are fewer than eight bytes. -/
def carriesOnlyAllowedWebp (input : ByteString) : Except String Bool :=
  if input.length < 8 then .error "out of range"
  else if readUInt32LE (input.drop 4) + 8 ≠ input.length then .ok false
  else .ok (webpHeader ≤ input.length && onlyCleanChunks input.length (input.drop webpHeader))

end Pixaeron.Worker
