import Pixaeron.Conversion.Contract
import Pixaeron.Worker.Webp

/-! # Cleanliness

The walks that tell whether a file has nothing but the parts that are allowed in it.
-/

namespace Pixaeron.Worker

open Bytes Conversion

def pngCleanChunks : List ByteString :=
  [latin1 "IHDR", latin1 "PLTE", latin1 "IDAT", latin1 "tRNS", latin1 "gAMA", latin1 "cHRM",
    latin1 "sRGB", latin1 "iCCP", latin1 "sBIT", latin1 "bKGD", latin1 "pHYs", latin1 "cICP",
    latin1 "mDCv", latin1 "cLLi"]

def avifCleanBoxes : List ByteString :=
  [latin1 "ftyp", latin1 "meta", latin1 "mdat", latin1 "free", latin1 "skip"]

def avifCleanItems : List ByteString := [latin1 "av01", latin1 "grid"]

def isobmffFullBoxHeader : Nat := 12

/-- The walk over the chunks of a PNG file. Every round takes at least twelve bytes. -/
def onlyCleanPng (input : ByteString) : Nat → Nat → Bool
  | 0, _ => false
  | rounds + 1, offset =>
    if offset + 8 ≤ input.length then
      let length := readUInt32BE (input.drop offset)
      let chunkType := subarray input (offset + 4) (offset + 8)
      if chunkType = latin1 "IEND" then offset + 12 + length = input.length
      else if !pngCleanChunks.contains chunkType then false
      else onlyCleanPng input rounds (offset + 12 + length)
    else false

/-- The types of the entries of an item list, or `none` where one is malformed. -/
def avifEntries (input : ByteString) (iinfEnd : Nat) :
    Nat → Nat → List ByteString → Option (List ByteString)
  | 0, _, items => some items
  | rounds + 1, entry, items =>
    if entry + isobmffFullBoxHeader ≤ iinfEnd then
      let entryLength := readUInt32BE (input.drop entry)
      if subarray input (entry + 4) (entry + 8) ≠ latin1 "infe" ||
          entryLength < isobmffFullBoxHeader + 8 then none
      else
        let idBytes := if input[entry + 8]? = some 2 then 2 else 4
        let typeAt := entry + isobmffFullBoxHeader + idBytes + 2
        avifEntries input iinfEnd rounds (entry + entryLength)
          (items ++ [subarray input typeAt (typeAt + 4)])
    else some items

/-- The walk over the boxes in a `meta` box. -/
def avifChildren (input : ByteString) (boxEnd : Nat) :
    Nat → Nat → List ByteString → Option (List ByteString)
  | 0, _, items => some items
  | rounds + 1, child, items =>
    if child + 8 ≤ boxEnd then
      let childLength := readUInt32BE (input.drop child)
      if childLength < 8 then none
      else if subarray input (child + 4) (child + 8) = latin1 "iinf" then
        let countBytes := if input[child + 8]? = some 0 then 2 else 4
        let iinfEnd := min (child + childLength) input.length
        (avifEntries input iinfEnd input.length
          (child + isobmffFullBoxHeader + countBytes) items).bind
          (avifChildren input boxEnd rounds (child + childLength))
      else avifChildren input boxEnd rounds (child + childLength) items
    else some items

/-- The walk over the boxes of an AVIF file. Every round of each of the walks takes at least eight
bytes. -/
def onlyCleanAvif (input : ByteString) : Nat → Nat → List ByteString → Bool
  | 0, _, _ => false
  | rounds + 1, offset, items =>
    if offset + 8 ≤ input.length then
      let length := readUInt32BE (input.drop offset)
      let boxType := subarray input (offset + 4) (offset + 8)
      if !avifCleanBoxes.contains boxType || length < 8 then false
      else
        let boxEnd := min (offset + length) input.length
        let found := if boxType = latin1 "meta" then
          avifChildren input boxEnd input.length (offset + isobmffFullBoxHeader) items
            else some items
        match found with
        | none => false
        | some items => onlyCleanAvif input rounds (offset + length) items
    else offset = input.length && items.length > 0 && items.all avifCleanItems.contains

def carriesOnlyAllowedTypes (format : ConversionImageFormat)
    (input : ByteString) : Except String Bool :=
  match format with
  | .jpeg => carriesOnlyAllowedJpeg input
  | .png => .ok (onlyCleanPng input (input.length + 1) 8)
  | .webp => carriesOnlyAllowedWebp input
  | .avif => .ok (onlyCleanAvif input (input.length + 1) 0 [])

end Pixaeron.Worker
